import Formula.Proofs.Dangling

/-!
# Signs without an operand

Behind a product that runs out a sign belongs to a factor. If nothing stands behind the sign, that
factor is what fails, for want of its operand (`Dangles.fails_sign`).

The failure is followed through the completed text. What runs out is completed by a signed operand,
so the text in front of the sign is that of a product up to its last factor and of a power up to its
exponent. A product fails as its last factor does, and a power as its exponent does.
-/

namespace Formula

open BinaryOperator (powers)

variable {level next : Level} {start position : Nat} {c : Cursor} {op : BinaryOperator}
  {cause : Cause} {l v w x text : List Char} {y : Char} {o : Outcome}
  {operators : List BinaryOperator}

/-! ### Failures of a last operand -/

/-- The run of the cursor fails with the cause at the position. -/
def Fails (level : Level) (c : Cursor) (cause : Cause) (position : Nat) : Prop :=
  ∃ f, (run level c).result = .error f ∧ f.cause = cause ∧ f.position = position

theorem Fails.unique {cause' : Cause} {position' : Nat} (h : Fails level c cause position)
    (h' : Fails level c cause' position') : cause = cause' ∧ position = position' := by
  obtain ⟨f, failed, rfl, rfl⟩ := h
  obtain ⟨f', failed', rfl, rfl⟩ := h'
  obtain rfl := Except.error.inj (failed.symm.trans failed')
  exact ⟨rfl, rfl⟩

theorem Fails.of_append (h : Fails level ⟨v ++ x ++ w, start⟩ cause position)
    (hv : Blank v) (hw : Blank w) (nonempty : cause ≠ .emptyInput) :
    Fails level ⟨x, start + v.length⟩ cause position := by
  have not_blank : ¬ Blank x := by
    intro hx
    obtain ⟨f, failed, rfl, -⟩ := h
    rw [result_of_blank (blank_append.2 ⟨blank_append.2 ⟨hv, hx⟩, hw⟩)] at failed
    obtain rfl := Except.error.inj failed
    exact nonempty rfl
  unfold Fails at h ⊢
  rwa [← run_append level start hv hw not_blank]

/-- Where a run is left to the right operand of an operator, it fails as the operand does. -/
theorem Fails.of_right_operand {g : Outcome → Outcome} (hv : Blank v) (hw : Blank w)
    (core : Core (l ++ op.symbol :: x)) (nonempty : cause ≠ .emptyInput)
    (left_to : (run level ⟨l ++ op.symbol :: x, start + v.length⟩).result =
      (((run next ⟨x, start + v.length + l.length + 1⟩).asOperand .right op
        ⟨x, start + v.length + l.length + 1⟩).map g).result)
    (h : Fails next ⟨x ++ w, start + (v ++ l).length + 1⟩ cause position) :
    Fails level ⟨v ++ l ++ op.symbol :: (x ++ w), start⟩ cause position := by
  have around : v ++ l ++ op.symbol :: (x ++ w) = v ++ (l ++ op.symbol :: x) ++ w := by simp
  rw [List.length_append, ← Nat.add_assoc] at h
  obtain ⟨f, failed, rfl, rfl⟩ := Fails.of_append (v := []) h blank_nil hw nonempty
  refine ⟨.ofOperand .right op ⟨x, start + v.length + l.length + 1⟩ f, ?_, ?_,
    Failure.position_ofOperand _ _ _ _⟩
  · rw [around, run_append level start hv hw core.not_blank, left_to]
    exact Run.result_map_asOperand_of_error failed
  · rw [Failure.cause_ofOperand, if_neg nonempty]

/-- A power fails as its exponent does. -/
theorem Fails.power (mem : op ∈ powers) (left : (run .transpose ⟨l, start⟩).result = .ok o)
    (nonempty : cause ≠ .emptyInput) (h : Fails .unary ⟨x, start + l.length + 1⟩ cause position) :
    Fails .exponential ⟨l ++ op.symbol :: x, start⟩ cause position := by
  have not_blank : ¬ Blank l := (written_of_run _ _ _ left).derives.not_blank
  obtain ⟨v, l, x, w, hv, hw, rfl, rfl, core, -⟩ :=
    exists_core_append_cons op.isBlank_symbol not_blank x
  have base : (run .transpose ⟨l, start + v.length⟩).result = .ok o :=
    result_run_of_append (w := []) (by simpa using left) hv blank_nil
  exact h.of_right_operand hv hw core nonempty (result_run_power mem base core)

/-- A product fails as its last factor does. -/
theorem Fails.product (mem : op ∈ Level.multiplicative.operators)
    (left : Written .multiplicative start l o) (hides : Hides Level.multiplicative.operators x)
    (nonempty : cause ≠ .emptyInput)
    (h : Fails .exponential ⟨x, start + l.length + 1⟩ cause position) :
    Fails .multiplicative ⟨l ++ op.symbol :: x, start⟩ cause position := by
  obtain ⟨v, l, x, w, hv, hw, rfl, rfl, core, -⟩ :=
    exists_core_append_cons op.isBlank_symbol left.derives.not_blank x
  have base : (run .multiplicative ⟨l, start + v.length⟩).result = .ok o :=
    result_run_of_append (w := []) (by simpa using run_of_written left) hv blank_nil
  have outside := (written_of_run _ _ _ base).derives.nested.through .zero
  have before := left.parsed.chained _ v l [] .products (by simp) hv blank_nil
  have behind : SignsOnly Level.multiplicative.operators .exponential
      (start + v.length + l.length + 1) x := hides.of_append.signsOnly
  have left_to := (Level.Chains.products.result_run core).trans
    (result_chainOf_append mem outside before behind)
  exact h.of_right_operand hv hw core nonempty left_to

theorem Fails.of_next (h : level.next? = some next) (rank : 3 ≤ level.rank)
    (hides : Hides level.operators text) (not_blank : ¬ Blank text)
    (fails : Fails next ⟨text, start⟩ cause position) :
    Fails level ⟨text, start⟩ cause position := by
  obtain ⟨f, failed, rest⟩ := fails
  exact ⟨f, (result_run_of_hides h rank hides not_blank).trans failed, rest⟩

/-! ### A sign behind what runs out -/

theorem Hides.concat (h : Hides operators text) (other : ∀ op ∈ operators, op.symbol ≠ y) :
    Hides operators (text ++ [y]) := by
  intro p op q eq mem outside
  rcases append_cons_eq_append_cons eq with ⟨m, rfl⟩ | ⟨-, rfl⟩ | ⟨m, rfl, -⟩
  · simp at eq
  · exact other op mem rfl
  · exact h p op m rfl mem outside

theorem Sign.isBlank_symbol (sign : Sign) : isBlank sign.symbol = false := by
  cases sign <;> decide

/-- A sign by itself lacks its operand. -/
theorem fails_of_sign (hv : Blank v) (sign : Sign) (start : Nat) :
    Fails .unary ⟨v ++ [sign.symbol], start⟩ (.missingSignOperand sign)
      (start + v.length + 1) := by
  have core : Core [sign.symbol] := core_singleton sign.isBlank_symbol
  have trimmed : (Cursor.mk (v ++ [sign.symbol]) start).trim =
      ⟨[sign.symbol], start + v.length⟩ := by
    simpa using Cursor.trim_core start hv core blank_nil
  have operand : (Cursor.mk [] (start + v.length + 1)).trim = ⟨[], start + v.length + 1⟩ :=
    Cursor.trim_of_blank blank_nil
  have step : Level.unary.step (Cursor.mk (v ++ [sign.symbol]) start).trim =
      .fail (.missingSignOperand sign) (start + v.length + 1) := by
    rw [trimmed, Level.step, Step.ofUnary_sign, operand]
    rfl
  have not_blank : ¬ Blank (v ++ [sign.symbol]) :=
    not_blank_append_cons sign.isBlank_symbol
  exact ⟨_, result_of_fail not_blank step, rfl, rfl⟩

/-- The operand of a sign has no sign of its own. -/
theorem blank_of_completed (h : Written .unary start (text ++ signedOperand) o) : Blank text := by
  by_contra not_blank
  have rank := (dangles_of_completed h (by decide)).1.rank not_blank
  exact absurd rank (by decide)

/-- In a power the exponent is the sign by itself, and otherwise the whole text is. -/
theorem fails_of_completed_power (h : Written .exponential start (text ++ signedOperand) o)
    (sign : Sign) :
    Fails .exponential ⟨text ++ [sign.symbol], start⟩ (.missingSignOperand sign)
      (start + text.length + 1) := by
  generalize whole : text ++ signedOperand = completed at h
  cases h with
  | @power _ l r left right op mem hl hr =>
    -- the operator stands in front of the sign
    obtain ⟨-, rfl⟩ | ⟨rest, rfl, rfl⟩ := cut_of_completed whole
    · exact absurd mem (by decide)
    have lone := fails_of_sign (blank_of_completed hr) sign (start + l.length + 1)
    have failed := lone.power mem (run_of_written hl) (by nofun)
    simpa [Nat.add_assoc, Nat.add_comm, Nat.add_left_comm] using failed
  | tighter h written =>
    cases h
    subst whole
    have blank := blank_of_completed written
    have hides : Hides powers (text ++ [sign.symbol]) :=
      (hides_of_forall fun op _ => blank.symbol_notMem op).concat
        (by cases sign <;> decide)
    exact (fails_of_sign blank sign start).of_next rfl (by decide) hides
      (not_blank_append_cons sign.isBlank_symbol)

theorem fails_of_completed_product (h : Written .multiplicative start (text ++ signedOperand) o)
    (sign : Sign) :
    Fails .multiplicative ⟨text ++ [sign.symbol], start⟩ (.missingSignOperand sign)
      (start + text.length + 1) := by
  have other : ∀ op ∈ Level.multiplicative.operators, op.symbol ≠ sign.symbol := by
    cases sign <;> decide
  generalize whole : text ++ signedOperand = completed at h
  cases h with
  | @product _ l r left right op mem hl hr =>
    obtain ⟨-, rfl⟩ | ⟨rest, rfl, rfl⟩ := cut_of_completed whole
    · exact absurd mem (by decide)
    have last := fails_of_completed_power hr sign
    have hides : Hides Level.multiplicative.operators rest := hr.derives.hides.of_append
    have failed := last.product mem hl (hides.concat other) (by nofun)
    simpa [Nat.add_assoc, Nat.add_comm, Nat.add_left_comm] using failed
  | tighter h written =>
    cases h
    subst whole
    have hides : Hides Level.multiplicative.operators text := written.derives.hides.of_append
    exact (fails_of_completed_power written sign).of_next rfl (by decide) (hides.concat other)
      (not_blank_append_cons sign.isBlank_symbol)

/-- Behind a product that runs out a sign with nothing behind it lacks its operand. -/
theorem Dangles.fails_sign (h : Dangles .multiplicative ⟨text, start⟩) (hw : Blank w) (sign : Sign) :
    Fails .multiplicative ⟨text ++ sign.symbol :: w, start⟩ (.missingSignOperand sign)
      (start + text.length + 1) := by
  obtain ⟨o, written⟩ := Dangles.exists_written _ _ h (by decide) [] blank_nil
  rw [List.append_nil] at written
  have alone := fails_of_completed_product written sign
  have around : text ++ sign.symbol :: w = [] ++ (text ++ [sign.symbol]) ++ w := by simp
  unfold Fails at alone ⊢
  rwa [around, run_append _ start blank_nil hw (not_blank_append_cons sign.isBlank_symbol)]

end Formula
