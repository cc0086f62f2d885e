import Formula.Proofs.Completeness
import Formula.Proofs.Unfinished

/-!
# Dangling operands

A chain that cannot read the operand in front of an operator asks whether the operand has only run
out. If so, the operator is taken for a sign and the chain reads on. The test looks at nothing but
the cause and the offset of the failure, and it is exact: a text runs out just when a signed operand
behind it completes it (`runsOut_iff_completable`).

That every text which runs out is completed is shown by induction on the run
(`Dangles.exists_written`). For the converse the completed text is cut at its last sign. In a
product the text in front of a sign outside brackets always runs out. In a sum the last term does,
and the terms in front of it are read as before.
-/

namespace Formula

open BinaryOperator (additive)

variable {level next : Level} {start : Nat} {l r text : List Char} {c : Cursor} {o : Outcome}
  {op : BinaryOperator}

/-- The run of the cursor fails, but a signed operand behind the text mends it. -/
def Completable (level : Level) (c : Cursor) : Prop :=
  (∃ f, (run level c).result = .error f) ∧
    ∃ o, (run level ⟨c.text ++ signedOperand, c.start⟩).result = .ok o

/-- The run of the cursor fails for want of an operand at its end, or of all input. -/
def RunsOut (level : Level) (c : Cursor) : Prop :=
  ∃ f, (run level c).result = .error f ∧
    (f.cause.kind = .emptyInput ∨ f.cause.kind = .missingOperand ∧ f.position = c.trim.stop)

theorem Dangles.completable (h : Dangles level c) (rank : 2 ≤ level.rank) :
    Completable level c := by
  obtain ⟨o, written⟩ := Dangles.exists_written level c h rank [] blank_nil
  rw [List.append_nil] at written
  obtain ⟨f, failed, -⟩ := h
  exact ⟨⟨f, failed⟩, o, run_of_written written⟩

/-! ### What is completed has run out -/

theorem through_of_completed (h : Written level start (text ++ signedOperand) o) :
    Depth.zero.through text = .zero := by
  have no_brackets : ∀ c ∈ signedOperand, isBracket c = false := by
    simp [signedOperand, isBracket]
  have outside := h.derives.nested.through .zero
  rwa [Depth.through_append, Depth.through_of_forall no_brackets] at outside

/-- An operator in a completed text is that of the signed operand, or it stands in front of it. -/
theorem cut_of_completed (eq : text ++ signedOperand = l ++ op.symbol :: r) :
    (text = l ∧ op = .subtract) ∨
      ∃ rest, text = l ++ op.symbol :: rest ∧ r = rest ++ signedOperand := by
  rcases append_cons_eq_append_cons eq with ⟨m, rfl⟩ | ⟨same, symbol⟩ | cut
  · -- no operator stands behind the sign
    have behind : op.symbol ∈ ['x'] := by
      have cut : ['x'] = m ++ op.symbol :: r := by simpa [signedOperand] using eq
      rw [cut]
      exact List.mem_append_right _ List.mem_cons_self
    exact absurd behind (by cases op <;> decide)
  · have sign : BinaryOperator.subtract.symbol = op.symbol := symbol
    exact .inl ⟨same, (BinaryOperator.symbol_injective sign).symm⟩
  · exact .inr cut

/-- The sign behind a text that is no sum is a sign, and so are all signs in the text. -/
theorem dangles_of_completed (h : Written level start (text ++ signedOperand) o)
    (no_sum : level ≠ .additive) :
    Dangles level ⟨text, start⟩ ∧ SignsOnly additive level start text := by
  have signs := h.parsed.signs no_sum
  refine ⟨(signs text .subtract ['x'] rfl (by decide) (through_of_completed h)).2, ?_⟩
  exact SignsOnly.of_append (v := []) signs blank_nil

theorem dangles_of_completed_sum (h : Written .additive start (text ++ signedOperand) o)
    (fails : ∀ o, (run .additive ⟨text, start⟩).result ≠ .ok o) :
    Dangles .additive ⟨text, start⟩ := by
  generalize whole : text ++ signedOperand = completed at h
  cases h with
  | @sum _ l r left right op mem hl hr =>
    rcases cut_of_completed whole with ⟨rfl, -⟩ | ⟨last, rfl, rfl⟩
    · -- with the sign for its operator, the sum in front of it is parsed
      exact absurd (run_of_written hl) (fails left)
    · -- the sign is in the last term, so that one runs out
      obtain ⟨dangles, signs⟩ := dangles_of_completed hr (by decide)
      exact dangles.chain .sums mem (run_of_written hl) hl.parsed.chained signs
  | tighter h written =>
    cases h
    subst whole
    obtain ⟨dangles, signs⟩ := dangles_of_completed written (by decide)
    by_cases blank : Blank text
    · exact dangles_of_blank blank
    · -- a sum of one term is left to the level of the term
      obtain ⟨f, failed, position⟩ := dangles
      exact ⟨f, (Level.Chains.sums.result_run_of_signsOnly signs blank).trans failed, position⟩

theorem Completable.dangles (h : Completable level c) (chains : level.Chains next) :
    Dangles level c := by
  obtain ⟨⟨f, failed⟩, o, ok⟩ := h
  have written := written_of_run _ _ _ ok
  cases chains with
  | sums => exact dangles_of_completed_sum written fun o ok => by cases failed.symm.trans ok
  | products => exact (dangles_of_completed written (by decide)).1

/-! ### The test -/

theorem dangles_iff_runsOut : Dangles level c ↔ RunsOut level c := by
  constructor
  · rintro ⟨f, failed, position, empty | kind⟩
    · exact ⟨f, failed, .inl (Cause.kind_eq_emptyInput_iff.2 empty)⟩
    · exact ⟨f, failed, .inr ⟨kind, position⟩⟩
  · rintro ⟨f, failed, empty | ⟨kind, position⟩⟩
    · -- only blanks are no input at all
      by_cases blank : Blank c.text
      · exact dangles_of_blank blank
      · have nonempty := (evident_of_run _ _ _ failed).ne_emptyInput blank
        exact absurd (Cause.kind_eq_emptyInput_iff.1 empty) nonempty
    · exact ⟨f, failed, position, .inr kind⟩

/-- A sum or a product runs out just when a signed operand completes it. The failure of an operand
says so whichever operator it belongs to: it is a dangling one just when the run of the operand
fails and would succeed with `-x` behind it. -/
theorem runsOut_iff_completable (chains : level.Chains next) (c : Cursor) :
    (RunsOut level c ↔ Completable level c) ∧
    ∀ side op,
      (∃ f, ((run level c).asOperand side op c).result = .error f ∧ f.isDangling c = true) ↔
        Completable level c := by
  have rank : 2 ≤ level.rank := Nat.le_of_succ_le chains.rank
  have exact_test : Dangles level c ↔ Completable level c :=
    ⟨fun dangles => dangles.completable rank, fun completable => completable.dangles chains⟩
  refine ⟨dangles_iff_runsOut.symm.trans exact_test, fun side op => ?_⟩
  exact (dangles_iff_isDangling side op).symm.trans exact_test

/-- The product `a*` runs out, and the sign behind it is that of a factor. -/
theorem runsOut_iff_completable_product :
    RunsOut .multiplicative ⟨['a', '*'], 0⟩ ∧
      ∃ o, (run .multiplicative ⟨['a', '*', '-', 'x'], 0⟩).result = .ok o := by
  have failed : (run .multiplicative ⟨['a', '*'], 0⟩).result =
      .error ⟨.missingOperand .right .multiply, 2, [⟨.operand .right .multiply, ⟨[], 2⟩⟩]⟩ := by
    cbv
  have runs_out : RunsOut .multiplicative ⟨['a', '*'], 0⟩ := ⟨_, failed, .inr ⟨rfl, by decide⟩⟩
  obtain ⟨-, completed⟩ := (runsOut_iff_completable .products ⟨['a', '*'], 0⟩).1.1 runs_out
  exact ⟨runs_out, completed⟩

end Formula
