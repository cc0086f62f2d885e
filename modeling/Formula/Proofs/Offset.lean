import Formula.Proofs.Run
import Formula.Report

/-!
# Offsets

The parser reads offsets only to pass them on. The run of a cursor that stands further on in the
input is the run of the cursor with every offset greater by the same amount (`run_shift`): those of
the visits, of the names, and of a failure with its trail. Nothing else of an outcome or of a report
depends on where the text stands (`run_at_offset`).
-/

namespace Formula

variable {k : Nat} {c : Cursor} {r : Run Outcome}

/-! ### Moving things on -/

/-- The same text further on in the input. -/
def Cursor.shift (k : Nat) (c : Cursor) : Cursor := ⟨c.text, c.start + k⟩

def Occurrence.shift (k : Nat) (x : Occurrence) : Occurrence := ⟨x.name, x.position + k⟩

def Outcome.shift (k : Nat) (o : Outcome) : Outcome := o.map (Occurrence.shift k)

def Frame.shift (k : Nat) (f : Frame) : Frame := ⟨f.context, f.cursor.shift k⟩

def Failure.shift (k : Nat) (f : Failure) : Failure :=
  ⟨f.cause, f.position + k, f.trail.map (Frame.shift k)⟩

def Visit.shift (k : Nat) (v : Visit) : Visit := ⟨v.level, v.cursor.shift k⟩

/-- What a parse results in further on. -/
def shiftResult (k : Nat) : Except Failure Outcome → Except Failure Outcome
  | .ok o => .ok (o.shift k)
  | .error f => .error (f.shift k)

def Run.shift (k : Nat) (r : Run Outcome) : Run Outcome :=
  ⟨r.visits.map (Visit.shift k), shiftResult k r.result⟩

def Folded.shift (k : Nat) (folded : Folded) : Folded :=
  folded.map fun (left, op) => (left.shift k, op)

def Step.shift (k : Nat) : Step → Step
  | fail cause position => fail cause (position + k)
  | symbol occurrence => symbol (occurrence.shift k)
  | descend next => descend next
  | enclose enclosure operand => enclose enclosure (operand.shift k)
  | power base op exponent => power (base.shift k) op (exponent.shift k)
  | chain next head tail => chain next (head.shift k) tail

/-! ### Cuts -/

namespace Cursor

@[simp] theorem length_shift : (c.shift k).length = c.length := rfl

@[simp] theorem stop_shift : (c.shift k).stop = c.stop + k := by
  simp only [stop, shift, length]
  omega

@[simp] theorem isEmpty_shift : (c.shift k).isEmpty = c.isEmpty := rfl

@[simp] theorem trim_shift : (c.shift k).trim = c.trim.shift k := by
  simp only [trim, shift, length, mk.injEq, true_and]
  omega

@[simp] theorem drop_shift (n : Nat) : (c.shift k).drop n = (c.drop n).shift k := by
  simp only [drop, shift, mk.injEq, true_and]
  omega

@[simp] theorem dropLast_shift : (c.shift k).dropLast = c.dropLast.shift k := rfl

@[simp] theorem interior_shift : (c.shift k).interior = c.interior.shift k := by
  simp [interior]

end Cursor

namespace Step

theorem name_shift : name (c.shift k) = (name c).mapError fun (cause, p) => (cause, p + k) := by
  unfold name Cursor.shift
  simp only
  split
  · rfl
  · simp only [Except.mapError, Nat.add_right_comm]

theorem ofExponential_shift : ofExponential (c.shift k) = (ofExponential c).shift k := by
  unfold ofExponential Cursor.findSplit
  cases h : scan (BinaryOperator.among? BinaryOperator.powers) .zero 0 c.text with
  | none => simp [Cursor.shift, h, shift]
  | some split =>
    obtain ⟨l, op, r⟩ := split
    simp only [Cursor.shift, h, Option.map_some, shift, power.injEq, Cursor.mk.injEq, true_and]
    omega

theorem ofUnary_shift : ofUnary (c.shift k) = (ofUnary c).shift k := by
  have first : (c.shift k).first? = c.first? := rfl
  unfold ofUnary
  rw [first]
  cases c.first?.bind Sign.ofChar? with
  | none => rfl
  | some sign =>
    simp only [Cursor.drop_shift, Cursor.trim_shift, Cursor.isEmpty_shift]
    split <;> rfl

theorem ofTranspose_shift : ofTranspose (c.shift k) = (ofTranspose c).shift k := by
  have last : (c.shift k).last? = c.last? := rfl
  simp only [ofTranspose, last, Cursor.dropLast_shift, Cursor.trim_shift, Cursor.isEmpty_shift]
  split
  · split <;> rfl
  · rfl

theorem ofGroup_shift : ofGroup (c.shift k) = (ofGroup c).shift k := by
  have last : (c.shift k).last? = c.last? := rfl
  simp only [ofGroup, last, Cursor.length_shift, Cursor.interior_shift, Cursor.trim_shift,
    Cursor.isEmpty_shift, Cursor.stop_shift]
  split
  · rfl
  · split <;> rfl

theorem ofFunction_shift (before : Nat) :
    ofFunction (c.shift k) before = (ofFunction c before).shift k := by
  have last : (c.shift k).last? = c.last? := rfl
  have head : Cursor.mk ((c.shift k).text.take before) (c.shift k).start =
      (Cursor.mk (c.text.take before) c.start).shift k := rfl
  simp only [ofFunction, last, head, Cursor.drop_shift, Cursor.dropLast_shift, Cursor.trim_shift,
    Cursor.isEmpty_shift, Cursor.stop_shift, name_shift]
  split
  · rfl
  · split
    · simp only [shift, Cursor.shift, fail.injEq, true_and]
      omega
    · cases name (Cursor.mk (c.text.take before) c.start).trim with
      | error e => rfl
      | ok n =>
        simp only [Except.mapError]
        split <;> rfl

theorem ofPrimary_shift : ofPrimary (c.shift k) = (ofPrimary c).shift k := by
  have first : (c.shift k).first? = c.first? := rfl
  have text : (c.shift k).text = c.text := rfl
  unfold ofPrimary
  rw [first, text]
  split
  · exact ofGroup_shift
  · split
    · exact ofFunction_shift _
    · rw [ofSymbol, ofSymbol, name_shift]
      cases name c <;> rfl

end Step

/-- What a level makes of a cursor does not depend on where it stands. -/
theorem step_shift (level : Level) : level.step (c.shift k) = (level.step c).shift k := by
  cases level with
  | additive => rfl
  | multiplicative => rfl
  | exponential => exact Step.ofExponential_shift
  | unary => exact Step.ofUnary_shift
  | transpose => exact Step.ofTranspose_shift
  | primary => exact Step.ofPrimary_shift

/-! ### Runs -/

namespace Run

variable {next next' : Except Failure Outcome → Run Outcome} {g g' : Outcome → Outcome}
  {m m' : Failure → Failure}

theorem mapFailure_shift (h : ∀ f, m' (f.shift k) = (m f).shift k) :
    (r.shift k).mapFailure m' = (r.mapFailure m).shift k := by
  unfold mapFailure shift
  cases r.result with
  | ok o => rfl
  | error f => simp only [shiftResult, Except.mapError, h]

theorem map_shift (h : ∀ o, g' (o.shift k) = Outcome.shift k (g o)) :
    (r.shift k).map g' = (r.map g).shift k := by
  unfold map shift
  cases r.result with
  | ok o => simp only [shiftResult, Except.map, h]
  | error f => rfl

theorem follow_shift (h : ∀ result, next' (shiftResult k result) = (next result).shift k) :
    (r.shift k).follow next' = (r.follow next).shift k := by
  simp only [follow, shift, h, List.map_append]

end Run

theorem Failure.ofOperand_shift (side : Side) (op : BinaryOperator) (c : Cursor) (f : Failure) :
    ofOperand side op (c.shift k) (f.shift k) = (ofOperand side op c f).shift k := by
  obtain ⟨cause, position, trail⟩ := f
  cases cause <;> rfl

theorem Failure.isDangling_shift (c : Cursor) (f : Failure) :
    (f.shift k).isDangling (c.shift k) = f.isDangling c := by
  rw [Bool.eq_iff_iff, isDangling_iff, isDangling_iff, Cursor.trim_shift, Cursor.stop_shift]
  simp [shift]

theorem Enclosure.wrap_shift (enclosure : Enclosure) (o : Outcome) :
    enclosure.wrap (o.shift k) = Outcome.shift k (enclosure.wrap o) := by
  cases enclosure <;> rfl

theorem Run.asOperand_shift (side : Side) (op : BinaryOperator) (c : Cursor) (r : Run Outcome) :
    (r.shift k).asOperand side op (c.shift k) = (r.asOperand side op c).shift k :=
  mapFailure_shift (Failure.ofOperand_shift side op c)

theorem Run.within_shift (enclosure : Enclosure) (c : Cursor) (r : Run Outcome) :
    (r.shift k).within enclosure (c.shift k) = (r.within enclosure c).shift k :=
  mapFailure_shift fun _ => rfl

namespace Folded

variable {folded : Folded}

theorem join_shift (folded : Folded) (operand : Outcome) :
    (folded.shift k).join (operand.shift k) = Outcome.shift k (folded.join operand) := by
  cases folded <;> rfl

theorem asOperand_shift (folded : Folded) (op : BinaryOperator) (c : Cursor) (r : Run Outcome) :
    (folded.shift k).asOperand op (c.shift k) (r.shift k) = (folded.asOperand op c r).shift k := by
  cases folded <;> exact Run.asOperand_shift _ _ _ _

theorem asLast_shift (folded : Folded) (c : Cursor) (r : Run Outcome) :
    (folded.shift k).asLast (c.shift k) (r.shift k) = (folded.asLast c r).shift k := by
  cases folded with
  | none => rfl
  | some => exact Run.asOperand_shift _ _ _ _

end Folded

theorem Cursor.beyond_shift (c : Cursor) (text : List Char) :
    (c.shift k).beyond text = (c.beyond text).shift k := by
  simp only [beyond, stop, length, shift, mk.injEq, true_and]
  omega

/-- The run of a cursor further on is the run of the cursor with every offset moved on. -/
theorem run_shift (k : Nat) :
    (∀ level c, run level (c.shift k) = (run level c).shift k) ∧
      ∀ next folded pending tail, chain next (Folded.shift k folded) (pending.shift k) tail =
        (chain next folded pending tail).shift k := by
  have nonempty {c : Cursor} (h : ¬ Blank c.text) : (c.shift k).trim.length ≠ 0 :=
    length_trim_ne_zero h
  have step {level : Level} {c : Cursor} {s : Step} (hs : level.step c.trim = s) :
      level.step (c.shift k).trim = s.shift k := by
    rw [Cursor.trim_shift, step_shift, hs]
  refine parse_induction ?blank ?fail ?symbol ?descend ?enclose ?power ?chain ?last ?more
  case blank =>
    intro level c blank
    have here := Cursor.length_trim_eq_zero_iff.2 blank
    rw [run_of_empty (c := c) here, run_of_empty (c := c.shift k) (by simpa using here),
      Cursor.trim_shift]
    rfl
  case fail =>
    intro level c cause position h hs
    rw [run_of_fail (length_trim_ne_zero h) hs, run_of_fail (nonempty h) (step hs),
      Cursor.trim_shift]
    rfl
  case symbol =>
    intro level c occurrence h hs
    rw [run_of_symbol (length_trim_ne_zero h) hs, run_of_symbol (nonempty h) (step hs),
      Cursor.trim_shift]
    rfl
  case descend =>
    intro level c next h hs ih
    rw [run_of_descend (length_trim_ne_zero h) hs, run_of_descend (nonempty h) (step hs),
      Cursor.trim_shift, ih]
    rfl
  case enclose =>
    intro level c enclosure operand h hs ih
    rw [run_of_enclose (length_trim_ne_zero h) hs, run_of_enclose (nonempty h) (step hs),
      Cursor.trim_shift, ih, Run.within_shift,
      Run.map_shift enclosure.wrap_shift]
    rfl
  case power =>
    intro level c base op exponent h hs ih_base ih_exponent
    have right (left : Outcome) :
        ((run .unary (exponent.shift k)).asOperand .right op (exponent.shift k)).map
            (.binary (left.shift k) op) =
          (((run .unary exponent).asOperand .right op exponent).map (.binary left op)).shift k := by
      rw [ih_exponent, Run.asOperand_shift]
      exact Run.map_shift fun _ => rfl
    rw [run_of_power (length_trim_ne_zero h) hs, run_of_power (nonempty h) (step hs),
      Cursor.trim_shift, ih_base, Run.asOperand_shift, Run.andThen, Run.andThen]
    refine congrArg (Run.visiting level (c.trim.shift k)) (Run.follow_shift fun result => ?_)
    cases result with
    | ok left => exact right left
    | error f => rfl
  case chain =>
    intro level c next head tail h hs ih
    rw [run_of_chain (length_trim_ne_zero h) hs, run_of_chain (nonempty h) (step hs),
      Cursor.trim_shift]
    exact congrArg (Run.visiting level (c.trim.shift k)) ih
  case last =>
    intro next folded pending ih
    rw [chain_nil, chain_nil, ih, Folded.asLast_shift, Run.map_shift folded.join_shift]
  case more =>
    intro next folded pending op text rest ih ih_beyond ih_widened
    rw [chain_cons, chain_cons, ih, Folded.asOperand_shift]
    refine Run.follow_shift fun result => ?_
    cases result with
    | ok operand =>
      simp only [shiftResult]
      rw [folded.join_shift, Cursor.beyond_shift]
      exact ih_beyond operand
    | error f =>
      simp only [shiftResult, Failure.isDangling_shift]
      split
      · exact ih_widened
      · rfl

/-! ### Outcomes and reports -/

theorem Outcome.expr_shift (o : Outcome) : (o.shift k).expr = o.expr := by
  rw [expr, shift, Tree.map_map]
  rfl

theorem Outcome.occurrences_shift (o : Outcome) :
    (o.shift k).occurrences = o.occurrences.map (Occurrence.shift k) :=
  Tree.leaves_map _ _

/-- The report of the same failure further on. Only the offsets are others. -/
def Report.shift (k : Nat) (r : Report) : Report :=
  { r with
    position := r.position + k
    trail := r.trail.map fun (note, cursor) => (note, cursor.shift k) }

theorem Report.ofFailure_shift (f : Failure) :
    ofFailure (f.shift k) none = (ofFailure f none).shift k := by
  have position : ((f.position + k : Nat) : Int) = f.position + k := Int.natCast_add _ _
  simp [ofFailure, ofCause, shift, Failure.shift, Frame.shift, position]

/-- The run of a text at an offset is that of the text at the front, with the offset added to that
of each visit and each name, or to the position of the failure and to the offset of each cursor in
its trail. -/
theorem run_at_offset (level : Level) (text : List Char) (k : Nat) :
    (run level ⟨text, k⟩).visits = (run level ⟨text, 0⟩).visits.map (Visit.shift k) ∧
    ((∃ o p, (run level ⟨text, 0⟩).result = .ok o ∧ (run level ⟨text, k⟩).result = .ok p ∧
        p.expr = o.expr ∧ p.occurrences = o.occurrences.map (Occurrence.shift k)) ∨
      ∃ e f, (run level ⟨text, 0⟩).result = .error e ∧ (run level ⟨text, k⟩).result = .error f ∧
        f = e.shift k ∧ Report.ofFailure f none = (Report.ofFailure e none).shift k) := by
  -- a cursor at an offset is the cursor at the front, moved on
  have moved : run level ⟨text, k⟩ = (run level ⟨text, 0⟩).shift k := by
    rw [← (run_shift k).1, Cursor.shift, Nat.zero_add]
  rw [moved]
  refine ⟨rfl, ?_⟩
  cases result : (run level ⟨text, 0⟩).result with
  | ok o =>
    exact .inl ⟨o, o.shift k, rfl, by rw [Run.shift, result]; rfl, o.expr_shift,
      o.occurrences_shift⟩
  | error e =>
    exact .inr ⟨e, e.shift k, rfl, by rw [Run.shift, result]; rfl, rfl, Report.ofFailure_shift e⟩

end Formula
