import Formula.Proofs.Run

/-!
# Chains of operands

What a chain makes of its operands. An operand that runs out at its right end (`Dangles`) is widened
by the sign behind it, so a chain whose operands all run out but the last is a chain of one operand
(`result_chain_of_dangles`). A chain that has succeeded goes on with any operators behind it
(`result_chain_append`).
-/

namespace Formula

open BinaryOperator (symbol)

variable {level next : Level} {c c' pending : Cursor} {folded : Folded} {op : BinaryOperator}
  {head text : List Char} {tail rest : List Piece} {o : Outcome} {start : Nat}

/-! ### Operands that run out -/

/-- The run of the cursor fails at its right end, for want of an operand. -/
def Dangles (level : Level) (c : Cursor) : Prop :=
  ∃ f, (run level c).result = .error f ∧ f.position = c.trim.stop ∧
    (f.cause = .emptyInput ∨ f.cause.kind = .missingOperand)

theorem dangles_of_blank (h : Blank c.text) : Dangles level c := by
  refine ⟨.bare .emptyInput c.trim.start, ?_, ?_, .inl rfl⟩
  · rw [run_of_empty (Cursor.length_trim_eq_zero_iff.2 h)]
    rfl
  · rw [Cursor.trim_of_blank h]
    rfl

theorem Dangles.congr (h : Dangles level c) (same : c.trim = c'.trim) : Dangles level c' := by
  unfold Dangles at h ⊢
  rwa [← run_congr same, ← same]

/-- A missing operand of blanks alone counts as one that runs out. -/
theorem kind_ofOperand {side : Side} {f : Failure}
    (cause : f.cause = .emptyInput ∨ f.cause.kind = .missingOperand) :
    (Failure.ofOperand side op c f).cause.kind = .missingOperand := by
  rw [Failure.cause_ofOperand]
  split
  · rfl
  · next nonempty => exact cause.resolve_left nonempty

theorem Failure.cause_of_ofOperand {side : Side} {f : Failure}
    (cause : (ofOperand side op c f).cause = .emptyInput ∨
      (ofOperand side op c f).cause.kind = .missingOperand) :
    f.cause = .emptyInput ∨ f.cause.kind = .missingOperand := by
  rw [cause_ofOperand] at cause
  split at cause
  · next empty => exact .inl empty
  · exact cause

/-- Whether an operand runs out is seen from its failure, whichever operator it belongs to. -/
theorem dangles_iff_isDangling (side : Side) (op : BinaryOperator) :
    Dangles level c ↔
      ∃ f, ((run level c).asOperand side op c).result = .error f ∧ f.isDangling c = true := by
  constructor
  · rintro ⟨f, failed, position, cause⟩
    refine ⟨_, Run.result_asOperand_of_error failed, Failure.isDangling_iff.2 ?_⟩
    exact ⟨kind_ofOperand cause, (Failure.position_ofOperand _ _ _ _).trans position⟩
  · rintro ⟨f, failed, dangling⟩
    obtain ⟨e, alone, rfl⟩ := Run.result_mapFailure_eq_error.1 failed
    obtain ⟨kind, position⟩ := Failure.isDangling_iff.1 dangling
    rw [Failure.position_ofOperand] at position
    exact ⟨e, alone, position, Failure.cause_of_ofOperand (.inr kind)⟩

theorem Dangles.result_asOperand (h : Dangles next pending) (folded : Folded)
    (op : BinaryOperator) :
    ∃ f, (folded.asOperand op pending (run next pending)).result = .error f ∧
      f.isDangling pending = true := by
  obtain ⟨side, around, eq⟩ := folded.exists_asOperand_eq op
  rw [eq]
  exact (dangles_iff_isDangling side around).1 h

/-- An operand runs out only if it does so alone. -/
theorem Folded.dangles_of_asOperand {f : Failure}
    (failed : (folded.asOperand op c (run next c)).result = .error f)
    (dangling : f.isDangling c = true) : Dangles next c := by
  obtain ⟨side, around, eq⟩ := folded.exists_asOperand_eq op
  rw [eq] at failed
  exact (dangles_iff_isDangling side around).2 ⟨f, failed, dangling⟩

/-! ### One operand more -/

theorem result_chain_cons_of_ok (ok : (run next pending).result = .ok o) :
    (chain next folded pending ((op, text) :: rest)).result =
      (chain next (some (folded.join o, op)) (pending.beyond text) rest).result := by
  have operand : (folded.asOperand op pending (run next pending)).result = .ok o :=
    Folded.result_asOperand_eq_ok.2 ok
  rw [chain_cons, Run.result_follow, operand]

/-- An operand that runs out in front of a sign is widened by it. -/
theorem result_chain_cons_of_dangles (sign : op.canSign = true) (dangles : Dangles next pending) :
    (chain next folded pending ((op, text) :: rest)).result =
      (chain next folded (pending.widen op text) rest).result := by
  obtain ⟨f, failed, dangling⟩ := dangles.result_asOperand folded op
  rw [chain_cons, Run.result_follow, failed]
  simp only [sign, dangling, Bool.and_self, if_true]

theorem result_chain_cons_of_error {f : Failure}
    (failed : (folded.asOperand op pending (run next pending)).result = .error f)
    (stops : ¬ (op.canSign && f.isDangling pending) = true) :
    (chain next folded pending ((op, text) :: rest)).result = .error f := by
  rw [chain_cons, Run.result_follow, failed]
  simp only [stops]
  rfl

/-- Operands that run out in front of signs make one operand with the last of them. -/
theorem result_chain_of_dangles {head : List Char} (h : ∀ before op piece behind,
      tail = before ++ (op, piece) :: behind →
      op.canSign = true ∧ Dangles next ⟨joined symbol head before, start⟩) :
    (chain next folded ⟨head, start⟩ (tail ++ rest)).result =
      (chain next folded ⟨joined symbol head tail, start⟩ rest).result := by
  induction tail generalizing head with
  | nil => simp
  | cons p tail ih =>
    obtain ⟨op, piece⟩ := p
    obtain ⟨sign, dangles⟩ := h [] op piece tail rfl
    rw [joined_nil] at dangles
    -- the widened operand is a head with one piece less behind it
    have widened : ∀ before op' piece' behind, tail = before ++ (op', piece') :: behind →
        op'.canSign = true ∧
          Dangles next ⟨joined symbol (head ++ op.symbol :: piece) before, start⟩ := by
      intro before op' piece' behind eq
      rw [joined_append_cons]
      exact h ((op, piece) :: before) op' piece' behind (by rw [eq, List.cons_append])
    rw [List.cons_append, result_chain_cons_of_dangles sign dangles, ← joined_append_cons,
      ← ih widened]
    rfl

/-! ### Longer chains -/

/-- A chain that has succeeded goes on with the operators behind it. -/
theorem result_chain_append (h : (chain next folded pending tail).result = .ok o) :
    (chain next folded pending (tail ++ (op, text) :: rest)).result =
      (chain next (some (o, op))
        ⟨text, pending.start + (joined symbol pending.text tail).length + 1⟩ rest).result := by
  induction tail generalizing folded pending with
  | nil =>
    rw [chain_nil] at h
    obtain ⟨operand, ok, rfl⟩ := Run.result_map_eq_ok.1 h
    have alone : (folded.asOperand op pending (run next pending)).result = .ok operand :=
      Folded.result_asOperand_eq_ok.2 (Folded.result_asLast_eq_ok.1 ok)
    rw [List.nil_append, chain_cons, Run.result_follow, alone, joined_nil]
    rfl
  | cons p tail ih =>
    obtain ⟨op', piece⟩ := p
    rw [chain_cons, Run.result_follow] at h
    rw [List.cons_append, chain_cons, Run.result_follow]
    cases result : (folded.asOperand op' pending (run next pending)).result with
    | ok operand =>
      rw [result] at h
      -- the chain that goes on begins behind the operand, so the same offset ends both
      rw [← pending.stop_beyond op' piece tail]
      exact ih h
    | error f =>
      rw [result] at h
      -- only an operand that runs out leaves a chain that can still succeed
      by_cases again : (op'.canSign && f.isDangling pending) = true
      · simp only [again, if_true] at h ⊢
        rw [ih h, Cursor.widen, joined_append_cons]
      · simp only [again] at h
        cases h

end Formula
