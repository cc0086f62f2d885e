import Formula.Proofs.Step

/-!
# Results of runs

How the result of a run comes about, whatever it visits: for each way of putting runs together, when
the whole succeeds and when it fails. A run depends on the trimmed cursor only (`run_congr`). What
holds of every run is proved by induction on the way it is made (`run_induction`).
-/

namespace Formula

open BinaryOperator (symbol)

namespace Run

variable {α β : Type} {r : Run α} {g : α → β} {b : β} {a : α} {f : Failure} {enclosure : Enclosure}
  {c : Cursor} {side : Side} {op : BinaryOperator}

@[simp] theorem result_visiting (level : Level) :
    (r.visiting level c).result = r.result := rfl

@[simp] theorem result_follow (next : Except Failure α → Run β) :
    (r.follow next).result = (next r.result).result := rfl

theorem result_map_eq_ok : (r.map g).result = .ok b ↔ ∃ a, r.result = .ok a ∧ g a = b := by
  unfold map
  cases r.result <;> simp [Except.map]

theorem result_map_eq_error : (r.map g).result = .error f ↔ r.result = .error f := by
  unfold map
  cases r.result <;> simp [Except.map]

theorem result_mapFailure_eq_ok {k : Failure → Failure} :
    (r.mapFailure k).result = .ok a ↔ r.result = .ok a := by
  unfold mapFailure
  cases r.result <;> simp [Except.mapError]

theorem result_mapFailure_eq_error {k : Failure → Failure} :
    (r.mapFailure k).result = .error f ↔ ∃ e, r.result = .error e ∧ k e = f := by
  unfold mapFailure
  cases r.result <;> simp [Except.mapError]

theorem result_andThen_eq_ok {next : α → Run β} :
    (r.andThen next).result = .ok b ↔ ∃ a, r.result = .ok a ∧ (next a).result = .ok b := by
  unfold andThen
  rw [result_follow]
  cases r.result <;> simp

theorem result_andThen_eq_error {next : α → Run β} :
    (r.andThen next).result = .error f ↔
      r.result = .error f ∨ ∃ a, r.result = .ok a ∧ (next a).result = .error f := by
  unfold andThen
  rw [result_follow]
  cases r.result <;> simp

theorem result_asOperand_of_error (failed : r.result = .error f) :
    (r.asOperand side op c).result = .error (.ofOperand side op c f) :=
  result_mapFailure_eq_error.2 ⟨f, failed, rfl⟩

theorem result_map_asOperand_of_error (failed : r.result = .error f) :
    ((r.asOperand side op c).map g).result = .error (.ofOperand side op c f) :=
  result_map_eq_error.2 (result_asOperand_of_error failed)

theorem result_map_asOperand_of_ok (ok : r.result = .ok a) :
    ((r.asOperand side op c).map g).result = .ok (g a) :=
  result_map_eq_ok.2 ⟨a, result_mapFailure_eq_ok.2 ok, rfl⟩

end Run

theorem Cause.kind_eq_emptyInput_iff {cause : Cause} :
    cause.kind = .emptyInput ↔ cause = .emptyInput := by
  cases cause <;> simp [kind]

theorem Failure.isDangling_iff {f : Failure} {operand : Cursor} :
    f.isDangling operand = true ↔
      f.cause.kind = .missingOperand ∧ f.position = operand.trim.stop := by
  simp [isDangling]

@[simp] theorem Failure.position_ofOperand (side : Side) (op : BinaryOperator) (c : Cursor)
    (f : Failure) : (ofOperand side op c f).position = f.position := by
  unfold ofOperand
  split <;> rfl

/-- Around an operand a failure keeps its cause, unless there is no operand at all. -/
theorem Failure.cause_ofOperand (side : Side) (op : BinaryOperator) (c : Cursor) (f : Failure) :
    (ofOperand side op c f).cause =
      if f.cause = .emptyInput then .missingOperand side op else f.cause := by
  unfold ofOperand
  split <;> simp_all [within, bare]

/-- An operand of a chain belongs to one operator, the one in front of it or the one behind. -/
theorem Folded.exists_asOperand_eq (folded : Folded) (op : BinaryOperator) :
    ∃ side around, ∀ (c : Cursor) (r : Run Outcome),
      folded.asOperand op c r = r.asOperand side around c := by
  cases folded with
  | none => exact ⟨.left, op, fun _ _ => rfl⟩
  | some p => exact ⟨.right, p.2, fun _ _ => rfl⟩

/-- The run of an operand of a chain succeeds as it does alone. -/
theorem Folded.result_asOperand_eq_ok {folded : Folded} {op : BinaryOperator} {c : Cursor}
    {r : Run Outcome} {o : Outcome} :
    (folded.asOperand op c r).result = .ok o ↔ r.result = .ok o := by
  obtain ⟨side, around, eq⟩ := folded.exists_asOperand_eq op
  rw [eq]
  exact Run.result_mapFailure_eq_ok

theorem Folded.result_asLast_eq_ok {folded : Folded} {c : Cursor} {r : Run Outcome} {o : Outcome} :
    (folded.asLast c r).result = .ok o ↔ r.result = .ok o := by
  cases folded with
  | none => rfl
  | some => exact Run.result_mapFailure_eq_ok

/-- A run depends on the trimmed cursor only. -/
theorem run_congr {level : Level} {c c' : Cursor} (h : c.trim = c'.trim) :
    run level c = run level c' := by
  rw [run, run, h]

/-- Blanks around a text change nothing of its run but the offsets. -/
theorem run_append (level : Level) (start : Nat) {u v w : List Char} (hv : Blank v) (hw : Blank w)
    (h : ¬ Blank u) : run level ⟨v ++ u ++ w, start⟩ = run level ⟨u, start + v.length⟩ :=
  run_congr (Cursor.trim_append start hv hw h)

/-! ### What is left of a chain -/

/-- Behind an operator a chain is further on in its text by what it has read. -/
theorem Cursor.start_beyond {pending : Cursor} {start : Nat} {before : List Char}
    (op : BinaryOperator) (text : List Char)
    (at_pending : pending.start = start + before.length) :
    (pending.beyond text).start = start + (before ++ pending.text ++ [op.symbol]).length := by
  simp [beyond, stop, length, at_pending]
  omega

/-- A chain ends where it ends behind its first operator. -/
theorem Cursor.stop_beyond (pending : Cursor) (op : BinaryOperator) (text : List Char)
    (rest : List Piece) :
    (pending.beyond text).start + (joined symbol (pending.beyond text).text rest).length =
      pending.start + (joined symbol pending.text ((op, text) :: rest)).length := by
  simp only [joined_cons, beyond, stop, length, List.length_append, List.length_cons]
  omega

/-! ### Results of a step -/

section

variable {level next : Level} {c : Cursor} {enclosure : Enclosure} {op : BinaryOperator}

theorem length_trim_ne_zero (h : ¬ Blank c.text) : c.trim.length ≠ 0 :=
  mt Cursor.length_trim_eq_zero_iff.1 h

theorem result_of_blank (h : Blank c.text) :
    (run level c).result = .error (.bare .emptyInput c.trim.start) := by
  rw [run_of_empty (Cursor.length_trim_eq_zero_iff.2 h)]
  rfl

theorem result_of_fail {cause : Cause} {position : Nat} (h : ¬ Blank c.text)
    (hs : level.step c.trim = .fail cause position) :
    (run level c).result = .error (.bare cause position) := by
  rw [run_of_fail (length_trim_ne_zero h) hs]
  rfl

theorem result_of_symbol {occurrence : Occurrence} (h : ¬ Blank c.text)
    (hs : level.step c.trim = .symbol occurrence) :
    (run level c).result = .ok (.leaf occurrence) := by
  rw [run_of_symbol (length_trim_ne_zero h) hs]
  rfl

theorem result_of_descend (h : ¬ Blank c.text) (hs : level.step c.trim = .descend next) :
    (run level c).result = (run next c.trim).result := by
  rw [run_of_descend (length_trim_ne_zero h) hs]
  rfl

theorem result_of_enclose {operand : Cursor} (h : ¬ Blank c.text)
    (hs : level.step c.trim = .enclose enclosure operand) :
    (run level c).result = (((run enclosure.operandLevel operand).within enclosure c.trim).map
      enclosure.wrap).result := by
  rw [run_of_enclose (length_trim_ne_zero h) hs]
  rfl

theorem result_of_power {base exponent : Cursor} (h : ¬ Blank c.text)
    (hs : level.step c.trim = .power base op exponent) :
    (run level c).result =
      (((run .transpose base).asOperand .left op base).andThen fun left =>
        ((run .unary exponent).asOperand .right op exponent).map (.binary left op)).result := by
  rw [run_of_power (length_trim_ne_zero h) hs]
  rfl

theorem result_of_chain {head : Cursor} {tail : List Piece} (h : ¬ Blank c.text)
    (hs : level.step c.trim = .chain next head tail) :
    (run level c).result = (chain next none head tail).result := by
  rw [run_of_chain (length_trim_ne_zero h) hs]
  rfl

end

/-! ### Results on a core -/

section Core

variable {level next : Level} {u : List Char} {start : Nat} {f : Failure} {o p : Outcome}

theorem result_run_of_symbol (hu : Core u) {occurrence : Occurrence}
    (hs : level.step ⟨u, start⟩ = .symbol occurrence) :
    (run level ⟨u, start⟩).result = .ok (.leaf occurrence) :=
  result_of_symbol hu.not_blank (by rwa [Cursor.trim_eq_self hu])

theorem result_run_of_descend (hu : Core u) (hs : level.step ⟨u, start⟩ = .descend next) :
    (run level ⟨u, start⟩).result = (run next ⟨u, start⟩).result := by
  rw [result_of_descend hu.not_blank (by rwa [Cursor.trim_eq_self hu]), Cursor.trim_eq_self hu]

theorem result_run_of_enclose (hu : Core u) {enclosure : Enclosure} {operand : Cursor}
    (hs : level.step ⟨u, start⟩ = .enclose enclosure operand)
    (inner : (run enclosure.operandLevel operand).result = .ok o) :
    (run level ⟨u, start⟩).result = .ok (enclosure.wrap o) := by
  rw [result_of_enclose hu.not_blank (by rwa [Cursor.trim_eq_self hu])]
  exact Run.result_map_eq_ok.2 ⟨o, Run.result_mapFailure_eq_ok.2 inner, rfl⟩

theorem result_run_of_power (hu : Core u) {base exponent : Cursor} {op : BinaryOperator}
    (hs : level.step ⟨u, start⟩ = .power base op exponent)
    (left : (run .transpose base).result = .ok o) :
    (run level ⟨u, start⟩).result =
      (((run .unary exponent).asOperand .right op exponent).map (.binary o op)).result := by
  rw [result_of_power hu.not_blank (by rwa [Cursor.trim_eq_self hu]), Run.andThen,
    Run.result_follow, Run.asOperand, Run.result_mapFailure_eq_ok.2 left]

theorem result_run_of_chain (hu : Core u) {head : Cursor} {tail : List Piece}
    (hs : level.step ⟨u, start⟩ = .chain next head tail) :
    (run level ⟨u, start⟩).result = (chain next none head tail).result :=
  result_of_chain hu.not_blank (by rwa [Cursor.trim_eq_self hu])

/-- A construct with one operand is run for its operand. -/
theorem Enclosure.Encloses.result_run {enclosure : Enclosure} {before behind text : List Char}
    (h : enclosure.Encloses before behind) (core : Core (before ++ text ++ behind))
    (not_blank : ¬ Blank text) (start : Nat) :
    (run enclosure.level ⟨before ++ text ++ behind, start⟩).result =
      (((run enclosure.operandLevel ⟨text, start + before.length⟩).within enclosure
        ⟨before ++ text ++ behind, start⟩).map enclosure.wrap).result := by
  obtain ⟨operand, hs, same⟩ := h.step core not_blank start
  rw [result_of_enclose core.not_blank (by rwa [Cursor.trim_eq_self core]), run_congr same,
    Cursor.trim_eq_self core]

end Core

/-! ### Induction on runs -/

/-- What is known of the step of a cursor that is not blank. -/
theorem cuts_of_step {level : Level} {c : Cursor} {s : Step} (h : ¬ Blank c.text)
    (hs : level.step c.trim = s) : s.Cuts level c.trim := by
  rw [← hs]
  exact step_cuts level (Cursor.core_trim h)

/-- Induction on what the parser does: one case for each step, with the induction hypothesis of the
parts it leaves, and two for a chain. -/
theorem parse_induction {P : Level → Cursor → Prop}
    {Q : Level → Folded → Cursor → List Piece → Prop}
    (blank : ∀ level c, Blank c.text → P level c)
    (fail : ∀ level c cause position, ¬ Blank c.text → level.step c.trim = .fail cause position →
      P level c)
    (symbol : ∀ level c occurrence, ¬ Blank c.text → level.step c.trim = .symbol occurrence →
      P level c)
    (descend : ∀ level c next, ¬ Blank c.text → level.step c.trim = .descend next →
      P next c.trim → P level c)
    (enclose : ∀ level c enclosure operand, ¬ Blank c.text →
      level.step c.trim = .enclose enclosure operand → P enclosure.operandLevel operand →
      P level c)
    (power : ∀ level c base op exponent, ¬ Blank c.text →
      level.step c.trim = .power base op exponent → P .transpose base → P .unary exponent →
      P level c)
    (chain : ∀ level c next head tail, ¬ Blank c.text → level.step c.trim = .chain next head tail →
      Q next none head tail → P level c)
    (last : ∀ next folded pending, P next pending → Q next folded pending [])
    (more : ∀ next folded pending op text rest, P next pending →
      (∀ operand, Q next (some (folded.join operand, op)) (pending.beyond text) rest) →
      Q next folded (pending.widen op text) rest → Q next folded pending ((op, text) :: rest)) :
    (∀ level c, P level c) ∧ ∀ next folded pending tail, Q next folded pending tail := by
  refine run.mutual_induct P Q ?_ last more
  intro level c trimmed ih_descend ih_enclose ih_base ih_exponent ih_chain
  by_cases h : Blank c.text
  · exact blank level c h
  have nonempty : c.trim.length ≠ 0 := mt Cursor.length_trim_eq_zero_iff.1 h
  cases hs : level.step c.trim with
  | fail cause position => exact fail level c cause position h hs
  | symbol occurrence => exact symbol level c occurrence h hs
  | descend next => exact descend level c next h hs (ih_descend nonempty next hs)
  | enclose enclosure operand =>
    exact enclose level c enclosure operand h hs (ih_enclose nonempty enclosure operand hs)
  | power base op exponent =>
    exact power level c base op exponent h hs (ih_base nonempty base op exponent hs)
      (ih_exponent nonempty base op exponent hs)
  | chain next head tail =>
    exact chain level c next head tail h hs (ih_chain nonempty next head tail hs)

/-- Induction on the runs of a level and of a chain, for what follows from how a step cuts its
cursor. -/
theorem run_induction {P : Level → Cursor → Run Outcome → Prop}
    {Q : Level → Folded → Cursor → List Piece → Run Outcome → Prop}
    (blank : ∀ level c, Blank c.text →
      P level c (.visiting level c.trim (.fail .emptyInput c.trim.start)))
    (fail : ∀ level c cause position, ¬ Blank c.text →
      (Step.fail cause position).Cuts level c.trim →
      P level c (.visiting level c.trim (.fail cause position)))
    (symbol : ∀ level c occurrence, ¬ Blank c.text → (Step.symbol occurrence).Cuts level c.trim →
      P level c (.visiting level c.trim (.done (.leaf occurrence))))
    (descend : ∀ level c next r, ¬ Blank c.text → (Step.descend next).Cuts level c.trim →
      P next c.trim r → P level c (.visiting level c.trim r))
    (enclose : ∀ level c enclosure operand r, ¬ Blank c.text →
      (Step.enclose enclosure operand).Cuts level c.trim → P enclosure.operandLevel operand r →
      P level c (.visiting level c.trim ((r.within enclosure c.trim).map enclosure.wrap)))
    (power : ∀ level c base op exponent r s, ¬ Blank c.text →
      (Step.power base op exponent).Cuts level c.trim → P .transpose base r → P .unary exponent s →
      P level c (.visiting level c.trim ((r.asOperand .left op base).andThen fun left =>
        (s.asOperand .right op exponent).map (.binary left op))))
    (chain : ∀ level c next head tail r, ¬ Blank c.text →
      (Step.chain next head tail).Cuts level c.trim → Q next none head tail r →
      P level c (.visiting level c.trim r))
    (last : ∀ next folded pending r, P next pending r →
      Q next folded pending [] ((folded.asLast pending r).map folded.join))
    (more : ∀ next folded pending op text rest r (beyond : Outcome → Run Outcome) widened,
      P next pending r →
      (∀ operand, Q next (some (folded.join operand, op)) (pending.beyond text) rest
        (beyond operand)) →
      Q next folded (pending.widen op text) rest widened →
      Q next folded pending ((op, text) :: rest) ((folded.asOperand op pending r).follow fun
        | .ok operand => beyond operand
        | .error f =>
          if op.canSign && f.isDangling pending then widened else ⟨[], .error f⟩)) :
    (∀ level c, P level c (run level c)) ∧
      ∀ next folded pending tail,
        Q next folded pending tail (Formula.chain next folded pending tail) := by
  refine parse_induction (P := fun level c => P level c (run level c))
    (Q := fun next folded pending tail => Q next folded pending tail
      (Formula.chain next folded pending tail)) ?_ ?_ ?_ ?_ ?_ ?_ ?_ ?_ ?_
  · intro level c h
    rw [run_of_empty (Cursor.length_trim_eq_zero_iff.2 h)]
    exact blank level c h
  · intro level c cause position h hs
    rw [run_of_fail (length_trim_ne_zero h) hs]
    exact fail level c cause position h (cuts_of_step h hs)
  · intro level c occurrence h hs
    rw [run_of_symbol (length_trim_ne_zero h) hs]
    exact symbol level c occurrence h (cuts_of_step h hs)
  · intro level c next h hs ih
    rw [run_of_descend (length_trim_ne_zero h) hs]
    exact descend level c next _ h (cuts_of_step h hs) ih
  · intro level c enclosure operand h hs ih
    rw [run_of_enclose (length_trim_ne_zero h) hs]
    exact enclose level c enclosure operand _ h (cuts_of_step h hs) ih
  · intro level c base op exponent h hs ih_base ih_exponent
    rw [run_of_power (length_trim_ne_zero h) hs]
    exact power level c base op exponent _ _ h (cuts_of_step h hs) ih_base ih_exponent
  · intro level c next head tail h hs ih
    rw [run_of_chain (length_trim_ne_zero h) hs]
    exact chain level c next head tail _ h (cuts_of_step h hs) ih
  · intro next folded pending ih
    rw [chain_nil]
    exact last next folded pending _ ih
  · intro next folded pending op text rest ih ih_beyond ih_widened
    rw [chain_cons]
    exact more next folded pending op text rest _ _ _ ih ih_beyond ih_widened

end Formula
