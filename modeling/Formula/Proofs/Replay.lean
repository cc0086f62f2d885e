import Formula.Proofs.Unfinished

/-!
# Failures read again

A frame of a trail holds a cursor and says what was being read there. Reading the cursor again, by
itself and at that level, fails in the same way: with the same cause at the same position, and with
the trail from this frame on (`replays_parse`). So no frame is left over from an attempt that was
given up, none is missing and none is noted twice.

The frame of an operand is noted by the chain or the power around it, not by the level that reads
the operand. Reading the operand again gives the trail behind the frame. An operand of blanks alone
is a different matter. By itself it is an empty input, and what was noted is that it is missing.
-/

namespace Formula

variable {level next : Level} {c pending : Cursor} {cause : Cause} {position : Nat}
  {op : BinaryOperator} {side : Side} {folded : Folded} {e f : Failure} {frame : Frame}
  {inner : List Frame}

/-! ### Levels of operands -/

/-- The level that reads the operand on a side of an operator. -/
def BinaryOperator.operandLevel (op : BinaryOperator) (side : Side) : Level :=
  match op, side with
  | add, _ => .multiplicative
  | subtract, _ => .multiplicative
  | multiply, _ => .exponential
  | divide, _ => .exponential
  | exponentiate, .left => .transpose
  | exponentiate, .right => .unary

theorem Level.Chains.operandLevel_eq (h : level.Chains next) (mem : op ∈ level.operators)
    (side : Side) : op.operandLevel side = next := by
  revert mem
  cases h <;> cases op <;> intro mem <;> first | rfl | exact absurd mem (by decide)

/-! ### Frames read again -/

/-- Reading the cursor of a frame again gives the failure again, with the frames behind this one. A
construct notes its frame itself, an operand is noted by what is around it. -/
def Frame.Replays (cause : Cause) (position : Nat) (inner : List Frame) (frame : Frame) : Prop :=
  match frame.context with
  | .inside enclosure =>
    (run enclosure.level frame.cursor).result = .error ⟨cause, position, frame :: inner⟩
  | .operand side op =>
    if Blank frame.cursor.text then
      inner = [] ∧ cause = .missingOperand side op ∧ position = frame.cursor.stop
    else (run (op.operandLevel side) frame.cursor).result = .error ⟨cause, position, inner⟩

theorem Frame.replays_missing (blank : Blank c.text) :
    Frame.Replays (.missingOperand side op) c.stop [] ⟨.operand side op, c⟩ := by
  simp only [Replays, if_pos blank, and_self]

theorem Frame.replays_operand (not_blank : ¬ Blank c.text)
    (failed : (run (op.operandLevel side) c).result = .error ⟨cause, position, inner⟩) :
    Frame.Replays cause position inner ⟨.operand side op, c⟩ := by
  simp only [Replays, if_neg not_blank]
  exact failed

/-- Every frame of the trail can be read again. -/
def Failure.Replays (f : Failure) : Prop :=
  ∀ outer frame inner, f.trail = outer ++ frame :: inner → frame.Replays f.cause f.position inner

namespace Failure

theorem replays_bare (cause : Cause) (position : Nat) : (bare cause position).Replays := by
  intro outer frame inner eq
  simp [bare] at eq

theorem Replays.within (h : f.Replays) {context : Context}
    (here : Frame.Replays f.cause f.position f.trail ⟨context, c⟩) :
    (f.within context c).Replays := by
  intro outer frame inner eq
  cases outer with
  | nil =>
    obtain ⟨rfl, rfl⟩ := List.cons.inj eq
    exact here
  | cons first outer =>
    obtain ⟨-, behind⟩ := List.cons.inj eq
    exact h outer frame inner behind

/-- The failure of an operand can be read again as that of the level below. -/
theorem Replays.ofOperand (h : e.Replays) (at_level : op.operandLevel side = next)
    (failed : (run next c).result = .error e) : (Failure.ofOperand side op c e).Replays := by
  by_cases blank : Blank c.text
  · -- the failure of the operand is replaced by one that says what is missing
    rw [result_of_blank blank] at failed
    obtain rfl := Except.error.inj failed
    have stop : c.trim.start = c.stop := by rw [Cursor.trim_of_blank blank]; rfl
    rw [stop]
    exact (replays_bare _ _).within (Frame.replays_missing blank)
  · have nonempty := (evident_of_run _ _ _ failed).ne_emptyInput blank
    unfold Failure.ofOperand
    split
    · next empty => exact absurd empty nonempty
    · subst at_level
      exact h.within (Frame.replays_operand blank failed)

end Failure

/-- The operators in hand are operators of the level. -/
def Folded.Among (level : Level) (folded : Folded) : Prop :=
  ∀ left op, folded = some (left, op) → op ∈ level.operators

theorem Folded.Among.replays_asOperand (among : folded.Among level) (chains : level.Chains next)
    (mem : op ∈ level.operators)
    (ih : ∀ e, (run next pending).result = .error e → e.Replays)
    (failed : (folded.asOperand op pending (run next pending)).result = .error f) :
    f.Replays := by
  cases folded with
  | none =>
    obtain ⟨e, alone, rfl⟩ := Run.result_mapFailure_eq_error.1 failed
    exact (ih e alone).ofOperand (chains.operandLevel_eq mem .left) alone
  | some p =>
    obtain ⟨e, alone, rfl⟩ := Run.result_mapFailure_eq_error.1 failed
    exact (ih e alone).ofOperand (chains.operandLevel_eq (among p.1 p.2 rfl) .right) alone

theorem Folded.Among.replays_asLast (among : folded.Among level) (chains : level.Chains next)
    (ih : ∀ e, (run next pending).result = .error e → e.Replays)
    (failed : (folded.asLast pending (run next pending)).result = .error f) : f.Replays := by
  cases folded with
  | none => exact ih f failed
  | some p =>
    obtain ⟨e, alone, rfl⟩ := Run.result_mapFailure_eq_error.1 failed
    exact (ih e alone).ofOperand (chains.operandLevel_eq (among p.1 p.2 rfl) .right) alone

/-! ### Every failure -/

/-- Every failure of a run can be read again from each frame of its trail. -/
theorem replays_of_run : ∀ (level : Level) (c : Cursor) (f : Failure),
    (run level c).result = .error f → f.Replays := by
  refine (parse_induction (P := fun level c => ∀ f, (run level c).result = .error f → f.Replays)
    (Q := fun next folded pending tail => ∀ level, level.Chains next →
      (∀ p ∈ tail, p.1 ∈ level.operators) → folded.Among level →
      ∀ f, (chain next folded pending tail).result = .error f → f.Replays)
    ?blank ?fail ?symbol ?descend ?enclose ?power ?chain ?last ?more).1
  case blank =>
    intro level c blank f failed
    rw [result_of_blank blank] at failed
    obtain rfl := Except.error.inj failed
    exact Failure.replays_bare _ _
  case fail =>
    intro level c cause position not_blank hs f failed
    rw [result_of_fail not_blank hs] at failed
    obtain rfl := Except.error.inj failed
    exact Failure.replays_bare _ _
  case symbol =>
    intro level c occurrence not_blank hs f failed
    rw [result_of_symbol not_blank hs] at failed
    cases failed
  case descend =>
    intro level c next not_blank hs ih f failed
    rw [result_of_descend not_blank hs] at failed
    exact ih f failed
  case enclose =>
    intro level c enclosure operand not_blank hs ih f failed
    obtain ⟨rfl, -⟩ := cuts_of_step not_blank hs
    -- the construct was read in the trimmed cursor, which is its frame
    have again : (run enclosure.level c.trim).result = .error f := by
      rw [run_congr Cursor.trim_trim, failed]
    rw [result_of_enclose not_blank hs] at failed
    obtain ⟨e, alone, rfl⟩ :=
      Run.result_mapFailure_eq_error.1 (Run.result_map_eq_error.1 failed)
    exact (ih e alone).within again
  case power =>
    intro level c base op exponent not_blank hs ih_base ih_exponent f failed
    obtain ⟨rfl, mem, -⟩ := cuts_of_step not_blank hs
    -- there is one operator of powers, and its sides are read by different levels
    obtain rfl := List.mem_singleton.1 mem
    rw [result_of_power not_blank hs] at failed
    rcases Run.result_andThen_eq_error.1 failed with failed | ⟨left, -, failed⟩
    · obtain ⟨e, alone, rfl⟩ := Run.result_mapFailure_eq_error.1 failed
      exact (ih_base e alone).ofOperand rfl alone
    · obtain ⟨e, alone, rfl⟩ :=
        Run.result_mapFailure_eq_error.1 (Run.result_map_eq_error.1 failed)
      exact (ih_exponent e alone).ofOperand rfl alone
  case chain =>
    intro level c next head tail not_blank hs ih f failed
    obtain ⟨chains, -, -, mem⟩ := cuts_of_step not_blank hs
    rw [result_of_chain not_blank hs] at failed
    exact ih level chains mem nofun f failed
  case last =>
    intro next folded pending ih level chains _ among f failed
    -- the failure of a single operand is handed on, without a frame
    rw [chain_nil] at failed
    exact among.replays_asLast chains ih (Run.result_map_eq_error.1 failed)
  case more =>
    intro next folded pending op text rest ih ih_beyond ih_widened level chains mem among f failed
    have op_mem : op ∈ level.operators := mem _ List.mem_cons_self
    have rest_mem : ∀ p ∈ rest, p.1 ∈ level.operators := fun p hp =>
      mem p (List.mem_cons_of_mem _ hp)
    rcases result_chain_cons next folded pending op text rest with
      ⟨operand, -, same⟩ | ⟨-, -, same⟩ | ⟨e, alone, stopped⟩
    · -- what is in hand behind the operator waits for the right operand of that operator
      rw [same] at failed
      refine ih_beyond operand level chains rest_mem ?_ f failed
      rintro left op' ⟨⟩
      exact op_mem
    · -- nothing of the attempt that ran out is left in the failure of the wider operand
      rw [same] at failed
      exact ih_widened level chains rest_mem among f failed
    · obtain rfl := Except.error.inj (stopped.symm.trans failed)
      exact among.replays_asOperand chains op_mem ih alone

/-- A failed parse can be replayed from every frame of its trail. -/
theorem replays_parse {text : String} (failed : (parse text).result = .error f) {i : Nat}
    (entry : f.trail[i]? = some frame) :
    frame.Replays f.cause f.position (f.trail.drop (i + 1)) := by
  obtain ⟨inside, rfl⟩ := List.getElem?_eq_some_iff.1 entry
  -- the trail is cut in front of the entry and behind it
  refine replays_of_run _ _ f failed (f.trail.take i) _ _ ?_
  rw [← List.drop_eq_getElem_cons inside, List.take_append_drop]

/-- A factor that lacks an operand, and empty brackets behind a sign: the frames of the term, of the
missing operand and of the sign, read again. -/
theorem replays_parse_brackets :
    ((parse "a+b*").result = .error ⟨.missingOperand .right .multiply, 4,
        [⟨.operand .right .add, ⟨['b', '*'], 2⟩⟩, ⟨.operand .right .multiply, ⟨[], 4⟩⟩]⟩ ∧
      Frame.Replays (.missingOperand .right .multiply) 4 [⟨.operand .right .multiply, ⟨[], 4⟩⟩]
        ⟨.operand .right .add, ⟨['b', '*'], 2⟩⟩ ∧
      Frame.Replays (.missingOperand .right .multiply) 4 []
        ⟨.operand .right .multiply, ⟨[], 4⟩⟩) ∧
    (parse "a*-()'").result = .error ⟨.emptyBrackets, 4,
        [⟨.operand .right .multiply, ⟨['-', '(', ')', '\x27'], 2⟩⟩,
          ⟨.inside (.sign .minus), ⟨['-', '(', ')', '\x27'], 2⟩⟩,
          ⟨.inside .transpose, ⟨['(', ')', '\x27'], 3⟩⟩]⟩ ∧
      Frame.Replays .emptyBrackets 4 [⟨.inside .transpose, ⟨['(', ')', '\x27'], 3⟩⟩]
        ⟨.inside (.sign .minus), ⟨['-', '(', ')', '\x27'], 2⟩⟩ := by
  have missing : (parse "a+b*").result = .error ⟨.missingOperand .right .multiply, 4,
      [⟨.operand .right .add, ⟨['b', '*'], 2⟩⟩, ⟨.operand .right .multiply, ⟨[], 4⟩⟩]⟩ := by
    cbv
  have empty : (parse "a*-()'").result = .error ⟨.emptyBrackets, 4,
      [⟨.operand .right .multiply, ⟨['-', '(', ')', '\x27'], 2⟩⟩,
        ⟨.inside (.sign .minus), ⟨['-', '(', ')', '\x27'], 2⟩⟩,
        ⟨.inside .transpose, ⟨['(', ')', '\x27'], 3⟩⟩]⟩ := by
    cbv
  exact ⟨⟨missing, replays_parse missing (i := 0) rfl, replays_parse missing (i := 1) rfl⟩, empty,
    replays_parse empty (i := 1) rfl⟩

end Formula
