import Formula.Proofs.Chain
import Formula.Proofs.Written

/-!
# What the parser returns is derived

A run that succeeds returns an outcome that is written in its cursor (`written_of_run`), each name
at the offset where it stands. A chain carries the text that it has already read: what is folded up
is written there, and an operator ends it (`Folded.Stands`).
-/

namespace Formula

open BinaryOperator (symbol)

variable {level next : Level} {c : Cursor} {start : Nat} {before text : List Char}
  {folded : Folded} {o operand : Outcome} {op : BinaryOperator}

theorem Written.chain {l r : List Char} {p : Outcome} (h : level.Chains next)
    (mem : op ∈ level.operators) (hl : Written level start l o)
    (hr : Written next (start + l.length + 1) r p) :
    Written level start (l ++ op.symbol :: r) (.binary o op p) := by
  cases h with
  | sums => exact .sum mem hl hr
  | products => exact .product mem hl hr

/-- The text in front of the operand in hand is what has been folded and the operator behind it. -/
def Folded.Stands (level : Level) (start : Nat) (before : List Char) : Folded → Prop
  | none => before = []
  | some (left, op) => op ∈ level.operators ∧
    ∃ l, before = l ++ [op.symbol] ∧ Written level start l left

theorem Folded.Stands.join (h : folded.Stands level start before) (chains : level.Chains next)
    (written : Written next (start + before.length) text operand) :
    Written level start (before ++ text) (folded.join operand) := by
  cases folded with
  | none =>
    obtain rfl : before = [] := h
    exact .tighter chains.next?_eq written
  | some p =>
    -- the operand stands one character behind what has been folded
    obtain ⟨mem, l, rfl, hl⟩ := h
    have right : Written next (start + l.length + 1) text operand := by
      simpa [Nat.add_assoc] using written
    rw [List.append_assoc]
    exact hl.chain chains mem right

/-- The construct around an operand that is written between the texts that enclose it. -/
theorem Enclosure.Encloses.written {enclosure : Enclosure} {behind : List Char}
    (h : enclosure.Encloses before behind)
    (written : Written enclosure.operandLevel (start + before.length) text o) :
    Written enclosure.level start (before ++ text ++ behind) (enclosure.wrap o) := by
  cases h with
  | @sign v sign blank =>
    have inner : Written .transpose (start + ([] : List Char).length + 1) (v ++ text ++ []) o :=
      written.pad blank blank_nil _ (by simp; omega)
    rw [List.append_nil, List.cons_append]
    exact .signed sign blank_nil (by simpa using inner)
  | @transpose w blank =>
    have inner : Written .primary start ([] ++ text ++ w) o := written.pad blank_nil blank start rfl
    rw [List.nil_append, ← List.append_assoc]
    exact .transposed blank_nil inner
  | parentheses => exact .group (v := []) (w := []) blank_nil blank_nil written
  | @function name v isName blank =>
    have inner : Written .additive (start + ([] ++ name ++ v).length + 1) text o := by
      rw [List.length_append] at written
      exact written
    rw [List.append_assoc (name ++ v), List.append_assoc (name ++ v)]
    exact .applied isName blank_nil blank blank_nil inner

/-- Around the core of a cursor there are blanks only, so it is enough to read the core. -/
theorem Written.of_trim (h : ¬ Blank c.text) (core : Written level c.trim.start c.trim.text o) :
    Written level c.start c.text o := by
  obtain ⟨v, u, w, hv, -, hw, eq, trimmed⟩ := Cursor.exists_trim h
  rw [trimmed] at core
  rw [eq]
  exact core.pad hv hw c.start rfl

/-- What a run returns is written in its cursor. -/
theorem written_of_run : ∀ (level : Level) (c : Cursor) (o : Outcome),
    (run level c).result = .ok o → Written level c.start c.text o := by
  refine (run_induction
    (P := fun level c r => ∀ o, r.result = .ok o → Written level c.start c.text o)
    (Q := fun next folded pending tail r => ∀ level start before o, level.Chains next →
      (∀ p ∈ tail, p.1 ∈ level.operators) → folded.Stands level start before →
      pending.start = start + before.length → r.result = .ok o →
      Written level start (before ++ joined symbol pending.text tail) o)
    ?blank ?fail ?symbol ?descend ?enclose ?power ?chain ?last ?more).1
  case blank =>
    intro level c _ o h
    cases h
  case fail =>
    intro level c cause position _ _ o h
    cases h
  case symbol =>
    rintro level c occurrence not_blank ⟨rfl, isName, rfl⟩ o h
    obtain rfl := Except.ok.inj h
    have core : Written .primary c.trim.start ([] ++ c.trim.text ++ []) _ :=
      .symbol isName blank_nil blank_nil
    exact .of_trim not_blank (by simpa using core)
  case descend =>
    intro level c next r not_blank next_level ih o h
    exact .of_trim not_blank (.tighter next_level (ih o h))
  case enclose =>
    rintro level c enclosure operand r not_blank ⟨rfl, -, before, behind, encloses, eq, at_operand⟩
      ih o h
    obtain ⟨inner, ok, rfl⟩ := Run.result_map_eq_ok.1 h
    have written := ih inner (Run.result_mapFailure_eq_ok.1 ok)
    rw [at_operand] at written
    refine .of_trim not_blank ?_
    rw [eq]
    exact encloses.written written
  case power =>
    rintro level c base op exponent r s not_blank ⟨rfl, mem, eq, at_base, at_exponent⟩
      ih_base ih_exponent o h
    obtain ⟨left, hl, rest⟩ := Run.result_andThen_eq_ok.1 h
    obtain ⟨right, hr, rfl⟩ := Run.result_map_eq_ok.1 rest
    have left_written := ih_base left (Run.result_mapFailure_eq_ok.1 hl)
    have right_written := ih_exponent right (Run.result_mapFailure_eq_ok.1 hr)
    rw [at_base] at left_written
    rw [at_exponent] at right_written
    refine .of_trim not_blank ?_
    rw [eq]
    exact .power mem left_written right_written
  case chain =>
    -- nothing has been folded yet, and no text stands in front of the head
    rintro level c next head tail r not_blank ⟨chains, at_head, eq, mem⟩ ih o h
    refine .of_trim not_blank ?_
    rw [← eq]
    exact ih level c.trim.start [] o chains mem rfl at_head h
  case last =>
    intro next folded pending r ih level start before o chains _ stands at_pending h
    obtain ⟨operand, ok, rfl⟩ := Run.result_map_eq_ok.1 h
    have written := ih operand (Folded.result_asLast_eq_ok.1 ok)
    rw [at_pending] at written
    rw [joined_nil]
    exact stands.join chains written
  case more =>
    intro next folded pending op text rest r beyond widened ih ih_beyond ih_widened level start
      before o chains mem stands at_pending h
    have op_mem : op ∈ level.operators := mem _ List.mem_cons_self
    have rest_mem : ∀ p ∈ rest, p.1 ∈ level.operators := fun p hp =>
      mem p (List.mem_cons_of_mem _ hp)
    rw [Run.result_follow] at h
    split at h
    · -- the operand is folded up and the operator goes to the text in front
      next operand ok =>
      have written := ih operand (Folded.result_asOperand_eq_ok.1 ok)
      rw [at_pending] at written
      have read := stands.join chains written
      rw [append_joined_cons]
      exact ih_beyond operand level start _ o chains rest_mem ⟨op_mem, _, rfl, read⟩
        (Cursor.start_beyond op text at_pending) h
    · -- the operator is taken for a sign, and the text as a whole stays the same
      split at h
      · have whole := ih_widened level start before o chains rest_mem stands at_pending h
        rwa [Cursor.widen, joined_append_cons] at whole
      · cases h

end Formula
