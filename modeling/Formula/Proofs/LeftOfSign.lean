import Formula.Proofs.LoneSign
import Formula.Proofs.Replay

/-!
# Left operands of signs

The characters of sums are also signs, and the operand in front of one is read before it is known
which of the two it is. If the operand has only run out, the character is a sign and the chain reads
on. Any other failure is final, and then the trail names the operand as the left one of an operator.

Such an operand may well end with an operator, so that the character behind it is a sign by the rule
that a sign is what no operand stands in front of (`not_forall_left_of_sign`). What is true is that
the operand has a fault of its own: no operand of the sign would have mended it, so there is no
reading in which the sign belongs to it. If it ends with a sign, the fault is that this one lacks
its operand (`left_of_sign_parse`).
-/

namespace Formula

open BinaryOperator (symbol additive)

variable {level next : Level} {c : Cursor} {op : BinaryOperator} {operators : List BinaryOperator}
  {side : Side} {e f : Failure} {head piece text : List Char} {tail : List Piece} {frame : Frame}
  {start : Nat}

/-! ### Operators outside brackets -/

theorem hides_of_pieces_eq
    (h : pieces (BinaryOperator.among? operators) .zero text = (head, tail)) :
    Hides operators head := by
  cases tail with
  | nil =>
    obtain ⟨rfl, hides⟩ := pieces_eq_nil_iff.1 h
    exact hides
  | cons p tail =>
    obtain ⟨-, -, hides, -⟩ := pieces_eq_cons_iff.1 h
    exact hides

/-- The operators of a chain stand outside brackets, and the pieces between them have no others. -/
def Outside (operators : List BinaryOperator) (head : List Char) (tail : List Piece) : Prop :=
  ∀ before op piece behind, tail = before ++ (op, piece) :: behind →
    Depth.zero.through (joined symbol head before) = .zero ∧ Hides operators piece

theorem outside_pieces (operators : List BinaryOperator) (text : List Char) :
    Outside operators (pieces (BinaryOperator.among? operators) .zero text).1
      (pieces (BinaryOperator.among? operators) .zero text).2 :=
  fun _ _ _ _ eq =>
    ⟨(eq_of_pieces_eq eq).2.1, hides_of_pieces_eq (pieces_joined_of_pieces_eq eq)⟩

theorem Outside.first (h : Outside operators head ((op, piece) :: tail)) :
    Depth.zero.through head = .zero ∧ Hides operators piece := by
  simpa using h [] op piece tail rfl

theorem Outside.widen (h : Outside operators head ((op, piece) :: tail)) :
    Outside operators (head ++ op.symbol :: piece) tail := by
  intro before op' piece' behind eq
  rw [joined_append_cons]
  exact h ((op, piece) :: before) op' piece' behind (by rw [eq, List.cons_append])

/-- A sign behind what runs out is one of the signs of the wider operand. -/
theorem SignsOnly.widen (h : SignsOnly operators level start head) (sign : op.canSign = true)
    (dangles : Dangles level ⟨head, start⟩) (outside : Depth.zero.through head = .zero)
    (hides : Hides operators piece) :
    SignsOnly operators level start (head ++ op.symbol :: piece) := by
  intro p op' q eq mem through
  rcases append_cons_eq_append_cons eq.symm with ⟨m, rfl⟩ | ⟨rfl, same⟩ | ⟨m, rfl, rfl⟩
  · exact h p op' m rfl mem through
  · rw [BinaryOperator.symbol_injective same]
    exact ⟨sign, dangles⟩
  · -- there is no operator outside brackets in the piece
    rw [Depth.through_append, outside, Depth.through_cons,
      Depth.after_of_isBracket_eq_false op.isBracket_symbol] at through
    exact absurd through (hides m op' q rfl mem)

/-! ### What a trail says of left operands -/

/-- A product that a chain has stopped at: it ends outside brackets, the texts in front of its own
signs run out, and the whole of it does not. -/
structure Cursor.Settled (c : Cursor) : Prop where
  outside : Depth.zero.through c.text = .zero
  signs : SignsOnly additive .multiplicative c.start c.text
  stops : ¬ Dangles .multiplicative c

/-- If the frame is that of the left operand of a sign, the operand is settled. -/
def Frame.Settled (frame : Frame) : Prop :=
  ∀ op, frame.context = .operand .left op → op ∈ additive → frame.cursor.Settled

theorem Frame.settled_inside (enclosure : Enclosure) (c : Cursor) :
    Frame.Settled ⟨.inside enclosure, c⟩ := nofun

theorem Frame.settled_right (op : BinaryOperator) (c : Cursor) :
    Frame.Settled ⟨.operand .right op, c⟩ := nofun

theorem Frame.settled_left (h : op ∈ additive → c.Settled) :
    Frame.Settled ⟨.operand .left op, c⟩ := by
  rintro op' ⟨⟩ mem
  exact h mem

/-- Around an operand the trail is one frame longer, or it is this frame alone. -/
theorem Failure.mem_trail_ofOperand (mem : frame ∈ (ofOperand side op c e).trail) :
    frame = ⟨.operand side op, c⟩ ∨ frame ∈ e.trail := by
  unfold ofOperand at mem
  rcases List.mem_cons.1 mem with here | inside
  · exact .inl here
  · split at inside
    · cases inside
    · exact .inr inside

theorem Failure.settled_ofOperand (here : Frame.Settled ⟨.operand side op, c⟩)
    (h : ∀ frame ∈ e.trail, frame.Settled) :
    ∀ frame ∈ (ofOperand side op c e).trail, frame.Settled := by
  intro frame mem
  rcases mem_trail_ofOperand mem with rfl | inside
  · exact here
  · exact h frame inside

/-- The operand at which a chain stops is settled, whichever operator it belongs to. -/
theorem Folded.settled_asOperand {folded : Folded} (chains : level.Chains next)
    (op_mem : op ∈ level.operators)
    (front : folded = none → Depth.zero.through c.text = .zero ∧
      SignsOnly level.operators next c.start c.text)
    (stops : ¬ (op.canSign = true ∧ Dangles next c))
    (ih : ∀ e, (run next c).result = .error e → ∀ frame ∈ e.trail, frame.Settled)
    (failed : (folded.asOperand op c (run next c)).result = .error f) :
    ∀ frame ∈ f.trail, frame.Settled := by
  cases folded with
  | none =>
    obtain ⟨e, alone, rfl⟩ := Run.result_mapFailure_eq_error.1 failed
    refine Failure.settled_ofOperand (Frame.settled_left fun sign => ?_) (ih e alone)
    obtain ⟨outside, signs⟩ := front rfl
    -- a sign is an operator of sums, so the operand is a product
    cases chains with
    | sums =>
      exact ⟨outside, signs, fun dangles => stops ⟨BinaryOperator.canSign_iff.2 sign, dangles⟩⟩
    | products => exact absurd sign (notMem_additive (List.mem_append_left _ op_mem))
  | some p =>
    obtain ⟨e, alone, rfl⟩ := Run.result_mapFailure_eq_error.1 failed
    exact Failure.settled_ofOperand (Frame.settled_right _ _) (ih e alone)

theorem Folded.settled_asLast {folded : Folded}
    (ih : ∀ e, (run next c).result = .error e → ∀ frame ∈ e.trail, frame.Settled)
    (failed : (folded.asLast c (run next c)).result = .error f) :
    ∀ frame ∈ f.trail, frame.Settled := by
  cases folded with
  | none => exact ih f failed
  | some p =>
    obtain ⟨e, alone, rfl⟩ := Run.result_mapFailure_eq_error.1 failed
    exact Failure.settled_ofOperand (Frame.settled_right _ _) (ih e alone)

/-- Every frame of a trail is settled. What carries the induction is that a chain which has folded
nothing yet has passed signs only, and that the operators in front of it are outside brackets. -/
theorem settled_of_run : ∀ (level : Level) (c : Cursor) (f : Failure),
    (run level c).result = .error f → ∀ frame ∈ f.trail, frame.Settled := by
  refine (parse_induction
    (P := fun level c => ∀ f, (run level c).result = .error f → ∀ frame ∈ f.trail, frame.Settled)
    (Q := fun next folded pending tail => ∀ level : Level, level.Chains next →
      (∀ p ∈ tail, p.1 ∈ level.operators) → (folded = none →
        SignsOnly level.operators next pending.start pending.text ∧
          Outside level.operators pending.text tail) →
      ∀ f, (chain next folded pending tail).result = .error f → ∀ frame ∈ f.trail, frame.Settled)
    ?blank ?fail ?symbol ?descend ?enclose ?power ?chain ?last ?more).1
  case blank =>
    intro level c blank f failed
    rw [result_of_blank blank] at failed
    obtain rfl := Except.error.inj failed
    nofun
  case fail =>
    intro level c cause position not_blank hs f failed
    rw [result_of_fail not_blank hs] at failed
    obtain rfl := Except.error.inj failed
    nofun
  case symbol =>
    intro level c occurrence not_blank hs f failed
    rw [result_of_symbol not_blank hs] at failed
    cases failed
  case descend =>
    intro level c next not_blank hs ih f failed
    rw [result_of_descend not_blank hs] at failed
    exact ih f failed
  case enclose =>
    intro level c enclosure operand not_blank hs ih f failed frame mem
    rw [result_of_enclose not_blank hs] at failed
    obtain ⟨e, alone, rfl⟩ :=
      Run.result_mapFailure_eq_error.1 (Run.result_map_eq_error.1 failed)
    rcases List.mem_cons.1 mem with rfl | inside
    · exact Frame.settled_inside _ _
    · exact ih e alone frame inside
  case power =>
    intro level c base op exponent not_blank hs ih_base ih_exponent f failed
    obtain ⟨rfl, mem, -⟩ := cuts_of_step not_blank hs
    -- the operator of powers is no sign
    have no_sign : op ∉ additive := notMem_additive (List.mem_append_right _ mem)
    rw [result_of_power not_blank hs] at failed
    rcases Run.result_andThen_eq_error.1 failed with failed | ⟨left, -, failed⟩
    · obtain ⟨e, alone, rfl⟩ := Run.result_mapFailure_eq_error.1 failed
      exact Failure.settled_ofOperand (Frame.settled_left fun sign => absurd sign no_sign)
        (ih_base e alone)
    · obtain ⟨e, alone, rfl⟩ :=
        Run.result_mapFailure_eq_error.1 (Run.result_map_eq_error.1 failed)
      exact Failure.settled_ofOperand (Frame.settled_right _ _) (ih_exponent e alone)
  case chain =>
    intro level c next head tail not_blank hs ih f failed
    obtain ⟨chains, -, -, mem⟩ := cuts_of_step not_blank hs
    rw [result_of_chain not_blank hs] at failed
    rw [step_of_chains chains] at hs
    obtain ⟨-, rfl, rfl⟩ := Step.chain.inj hs
    exact ih level chains mem
      (fun _ => ⟨(hides_of_pieces_eq rfl).signsOnly, outside_pieces _ _⟩) f failed
  case last =>
    intro next folded pending ih level chains _ _ f failed
    rw [chain_nil] at failed
    exact Folded.settled_asLast ih (Run.result_map_eq_error.1 failed)
  case more =>
    intro next folded pending op text rest ih ih_beyond ih_widened level chains mem front f failed
    have op_mem : op ∈ level.operators := mem _ List.mem_cons_self
    have rest_mem : ∀ p ∈ rest, p.1 ∈ level.operators := fun p hp =>
      mem p (List.mem_cons_of_mem _ hp)
    by_cases reads_on : op.canSign = true ∧ Dangles next pending
    · rw [result_chain_cons_of_dangles reads_on.1 reads_on.2] at failed
      refine ih_widened level chains rest_mem (fun none => ?_) f failed
      obtain ⟨signs, outside⟩ := front none
      obtain ⟨through, hides⟩ := outside.first
      exact ⟨signs.widen reads_on.1 reads_on.2 through hides, outside.widen⟩
    · rcases result_chain_cons next folded pending op text rest with
        ⟨operand, -, same⟩ | ⟨sign, dangles, -⟩ | ⟨e, alone, stopped⟩
      · rw [same] at failed
        exact ih_beyond operand level chains rest_mem nofun f failed
      · exact absurd ⟨sign, dangles⟩ reads_on
      · obtain rfl := Except.error.inj (stopped.symm.trans failed)
        exact Folded.settled_asOperand chains op_mem
          (fun none => ⟨(front none).2.first.1, (front none).1⟩) reads_on ih alone

/-! ### Signs and operators -/

/-- In front of a sign that belongs to a product the text runs out, so behind a settled operand no
text makes the sign one of its own. -/
theorem Cursor.Settled.exists_failure (h : c.Settled) (sign : op ∈ additive)
    (behind : List Char) :
    ∃ e, (run .multiplicative ⟨c.text ++ op.symbol :: behind, c.start⟩).result = .error e := by
  cases result : (run .multiplicative ⟨c.text ++ op.symbol :: behind, c.start⟩).result with
  | error e => exact ⟨e, rfl⟩
  | ok o =>
    have signs := (written_of_run _ _ _ result).parsed.signs (by decide)
    exact absurd (signs c.text op behind rfl sign h.outside).2 h.stops

theorem Sign.exists_additive (sign : Sign) : ∃ op ∈ additive, op.symbol = sign.symbol := by
  cases sign with
  | plus => exact ⟨.add, by decide, rfl⟩
  | minus => exact ⟨.subtract, by decide, rfl⟩

/-- A settled operand that ends with a sign fails because this one lacks its operand. -/
theorem Cursor.Settled.fails_sign (h : c.Settled) {sign : Sign}
    (last : c.trim.last? = some sign.symbol) :
    Fails .multiplicative c (.missingSignOperand sign) c.trim.stop := by
  have not_blank : ¬ Blank c.text := fun blank => h.stops (dangles_of_blank blank)
  obtain ⟨v, u, w, -, -, hw, text, trimmed⟩ := Cursor.exists_trim not_blank
  obtain ⟨whole, start⟩ := c
  rw [trimmed] at last ⊢
  obtain ⟨front, rfl⟩ := List.getLast?_eq_some_iff.1 last
  obtain ⟨op, mem, same⟩ := sign.exists_additive
  obtain rfl : whole = v ++ front ++ sign.symbol :: w := by simpa using text
  -- the text in front of the sign is one that runs out
  have through : Depth.zero.through (v ++ front) = .zero := by
    have outside := h.outside
    rwa [Depth.through_append, Depth.through_cons, ← same,
      Depth.after_of_isBracket_eq_false op.isBracket_symbol,
      Depth.through_of_forall hw.isBracket_eq_false] at outside
  obtain ⟨-, dangles⟩ := h.signs (v ++ front) op w (by rw [same]) mem through
  have fails := dangles.fails_sign hw sign
  have stop : (Cursor.mk (front ++ [sign.symbol]) (start + v.length)).stop =
      start + (v ++ front).length + 1 := by
    simp [Cursor.stop, Cursor.length, Nat.add_assoc]
  rwa [stop]

/-- A failure at the end of the cursor is for want of an operand or of a closing bracket. -/
theorem kind_of_stop (not_blank : ¬ Blank c.text) (failed : (run level c).result = .error f)
    (stop : f.position = c.trim.stop) :
    f.cause.kind = .missingOperand ∨ f.cause.kind = .missingSignOperand ∨
      f.cause.kind = .unmatchedBracket := by
  rw [← run_congr Cursor.trim_trim] at failed
  have evident := evident_of_run _ _ _ failed
  have nonempty := evident.ne_emptyInput (Cursor.core_trim not_blank).not_blank
  obtain ⟨before, behind, text, position, shown, -⟩ := evident
  -- the other causes are shown by a character behind the position
  obtain rfl : behind = [] := by
    apply List.eq_nil_of_length_eq_zero
    simp only [Cursor.stop, Cursor.length, text, List.length_append] at stop
    omega
  generalize f.cause = cause at nonempty shown ⊢
  cases cause with
  | emptyInput => exact absurd rfl nonempty
  | missingOperand => exact .inl rfl
  | missingSignOperand => exact .inr (.inl rfl)
  | unmatchedBracket => exact .inr (.inr rfl)
  | missingTransposeOperand | emptyBrackets | invalidCharacter =>
    simp [Cause.ShownBetween] at shown

/-- The left operand of a sign, as a failure names it: it is not missing, and the failure is that of
the operand alone. It lies in front of the end of the operand, or the operand ends with another sign
or with a bracket open. A sign at the end of the operand is what fails. Whatever stands behind the
sign in question, it is no part of the operand. -/
structure Failure.LiesLeftOf (f : Failure) (op : BinaryOperator) (c : Cursor) : Prop where
  not_blank : ¬ Blank c.text
  alone : Fails .multiplicative c f.cause f.position
  within : f.position < c.trim.stop ∨ f.position = c.trim.stop ∧
    (f.cause.kind = .missingSignOperand ∨ f.cause.kind = .unmatchedBracket)
  doubled : ∀ sign : Sign, c.trim.last? = some sign.symbol →
    f.cause = .missingSignOperand sign ∧ f.position = c.trim.stop
  no_sign : ∀ behind, ∃ e,
    (run .multiplicative ⟨c.text ++ op.symbol :: behind, c.start⟩).result = .error e

/-- The left operand of a sign that the trail of a failed parse names has a fault of its own, which
no operand of the sign would mend. -/
theorem left_of_sign_parse {text : String} (failed : (parse text).result = .error f)
    (mem : ⟨.operand .left op, c⟩ ∈ f.trail) (sign : op ∈ additive) : f.LiesLeftOf op c := by
  have settled : c.Settled := settled_of_run _ _ f failed _ mem op rfl sign
  have not_dangles := settled.stops
  have not_blank : ¬ Blank c.text := fun blank => not_dangles (dangles_of_blank blank)
  -- read again, the operand fails in the same way
  obtain ⟨outer, inner, trail⟩ := List.append_of_mem mem
  have replays := replays_of_run _ _ f failed outer _ inner trail
  have at_level : op.operandLevel .left = .multiplicative :=
    Level.Chains.sums.operandLevel_eq sign .left
  simp only [Frame.Replays, if_neg not_blank, at_level] at replays
  have alone : Fails .multiplicative c f.cause f.position := ⟨_, replays, rfl, rfl⟩
  have within : f.position ≤ c.trim.stop := by
    rw [← run_congr Cursor.trim_trim] at replays
    exact (position_of_run replays).2
  have at_end (stop : f.position = c.trim.stop) :
      f.cause.kind = .missingSignOperand ∨ f.cause.kind = .unmatchedBracket := by
    refine (kind_of_stop not_blank replays stop).resolve_left fun kind => ?_
    exact not_dangles ⟨_, replays, stop, .inr kind⟩
  exact {
    not_blank := not_blank
    alone := alone
    within := within.lt_or_eq.imp_right fun stop => ⟨stop, at_end stop⟩
    doubled := fun _ last => alone.unique (settled.fails_sign last)
    no_sign := settled.exists_failure sign }

/-- The second `*` lacks its left operand whatever stands behind the sign. -/
theorem left_of_sign_parse_doubled :
    (parse "a**+b").result = .error ⟨.missingOperand .right .multiply, 2,
        [⟨.operand .left .add, ⟨['a', '*', '*'], 0⟩⟩, ⟨.operand .right .multiply, ⟨[], 2⟩⟩]⟩ ∧
      Failure.LiesLeftOf ⟨.missingOperand .right .multiply, 2,
        [⟨.operand .left .add, ⟨['a', '*', '*'], 0⟩⟩, ⟨.operand .right .multiply, ⟨[], 2⟩⟩]⟩
        .add ⟨['a', '*', '*'], 0⟩ := by
  have failed : (parse "a**+b").result = .error ⟨.missingOperand .right .multiply, 2,
      [⟨.operand .left .add, ⟨['a', '*', '*'], 0⟩⟩, ⟨.operand .right .multiply, ⟨[], 2⟩⟩]⟩ := by
    cbv
  exact ⟨failed, left_of_sign_parse failed List.mem_cons_self (by decide)⟩

/-- The left operand of a sign may end with an operator: in `a**+b` it is `a**`. -/
theorem not_forall_left_of_sign :
    ¬ ∀ (text : String) (f : Failure) (op : BinaryOperator) (c : Cursor),
      (parse text).result = .error f → ⟨.operand .left op, c⟩ ∈ f.trail → op ∈ additive →
        ¬ Blank c.text ∧ ∀ o : BinaryOperator, c.trim.last? ≠ some o.symbol := by
  intro all
  have failed : (parse "a**+b").result = .error ⟨.missingOperand .right .multiply, 2,
      [⟨.operand .left .add, ⟨['a', '*', '*'], 0⟩⟩, ⟨.operand .right .multiply, ⟨[], 2⟩⟩]⟩ := by
    cbv
  exact (all _ _ _ _ failed List.mem_cons_self (by decide)).2 .multiply (by decide)

end Formula
