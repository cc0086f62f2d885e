import Formula.Proofs.Evidence
import Formula.Proofs.Soundness

/-!
# Unfinished texts

A text whose run fails at its right end for want of an operand is the front of a text that the
grammar derives: a signed operand behind it, such as `-x`, completes it (`Dangles.exists_written`).
So what the parser has read of it is in order, brackets included (`InOrder.nonneg`).
-/

namespace Formula

open BinaryOperator (symbol)

variable {level next : Level} {c part whole : Cursor} {cause : Cause} {position start : Nat}
  {before behind l r v w text : List Char} {op : BinaryOperator} {folded : Folded} {f : Failure}
  {x : Char}

/-! ### Where failures lie -/

/-- A character that is not blank stands in front of the end of the trimmed cursor. -/
theorem Cursor.lt_stop_trim (start : Nat) (h : isBlank x = false) :
    start + l.length < (Cursor.mk (l ++ x :: r) start).trim.stop := by
  obtain ⟨v, u, w, hv, -, hw, text, trimmed⟩ :=
    exists_trim (c := ⟨l ++ x :: r, start⟩) (not_blank_append_cons h)
  obtain ⟨l', r', rfl, rfl, -⟩ := exists_of_append_cons_eq h hv hw text
  rw [trimmed]
  simp [stop]
  omega

/-- Behind the end of the trimmed cursor there are blanks only. -/
theorem Cursor.blank_of_stop_trim (text : c.text = before ++ behind)
    (stop : c.start + before.length = c.trim.stop) : Blank behind := by
  obtain ⟨whole, start⟩ := c
  obtain rfl : whole = before ++ behind := text
  intro x mem
  by_contra solid
  obtain ⟨l, r, rfl⟩ := List.append_of_mem mem
  have later := lt_stop_trim (l := before ++ l) (r := r) start (by simpa using solid)
  rw [List.append_assoc, ← stop, List.length_append] at later
  simp only at later
  omega

/-- A failure lies within the cursor. -/
theorem position_of_run (failed : (run level c).result = .error f) :
    c.start ≤ f.position ∧ f.position ≤ c.stop := by
  obtain ⟨before, behind, text, position, -⟩ := evident_of_run _ _ _ failed
  simp only [Cursor.stop, Cursor.length, text, List.length_append]
  omega

/-- A failure at the end of a cursor, for want of an operand, is one of a level with binary
operators. -/
theorem Evident.rank_of_stop (h : Evident level c cause position) (stop : position = c.trim.stop)
    (kind : cause.kind = .missingOperand) : 3 ≤ level.rank := by
  obtain ⟨before, behind, text, rfl, shown, unfinished⟩ := h
  have blank := Cursor.blank_of_stop_trim text stop
  cases cause with
  | missingOperand side op =>
    cases side with
    | left =>
      -- the operator itself would stand behind the end
      obtain ⟨-, rest, rfl⟩ := shown
      exact absurd blank (not_blank_append_cons (l := []) op.isBlank_symbol)
    | right => exact (unfinished blank).1
  | _ => cases kind

theorem Dangles.rank (h : Dangles level c) (not_blank : ¬ Blank c.text) : 3 ≤ level.rank := by
  obtain ⟨f, failed, stop, cause⟩ := h
  have evident := evident_of_run _ _ _ failed
  exact evident.rank_of_stop stop (cause.resolve_left (evident.ne_emptyInput not_blank))

/-- The last operand of a chain that runs out does so alone. -/
theorem Folded.dangles_of_asLast (failed : (folded.asLast c (run next c)).result = .error f)
    (stop : f.position = c.trim.stop)
    (cause : f.cause = .emptyInput ∨ f.cause.kind = .missingOperand) : Dangles next c := by
  cases folded with
  | none => exact ⟨f, failed, stop, cause⟩
  | some =>
    obtain ⟨e, alone, rfl⟩ := Run.result_mapFailure_eq_error.1 failed
    rw [Failure.position_ofOperand] at stop
    exact ⟨e, alone, stop, Failure.cause_of_ofOperand cause⟩

theorem Enclosure.rank_level_le (enclosure : Enclosure) : enclosure.level.rank ≤ 2 := by
  cases enclosure <;> simp [level, Level.rank]

theorem mem_getLast?_append_cons {y : Char} (mem : x ∈ r.getLast?) :
    x ∈ (l ++ y :: r).getLast? := by
  rw [Option.mem_def] at mem ⊢
  simp [List.getLast?_append, List.getLast?_cons, mem]

/-! ### What runs out -/

theorem Dangles.of_descend (h : Dangles level c) (not_blank : ¬ Blank c.text)
    (hs : level.step c.trim = .descend next) : Dangles next c.trim := by
  obtain ⟨f, failed, stop, cause⟩ := h
  rw [result_of_descend not_blank hs] at failed
  exact ⟨f, failed, by rw [stop, Cursor.trim_trim], cause⟩

theorem Dangles.not_fail (h : Dangles level c) (not_blank : ¬ Blank c.text) :
    level.step c.trim ≠ .fail cause position := by
  intro hs
  obtain ⟨f, failed, -, kind⟩ := h
  have nonempty := (evident_of_run _ _ _ failed).ne_emptyInput not_blank
  rw [result_of_fail not_blank hs] at failed
  obtain rfl := Except.error.inj failed
  exact absurd (kind.resolve_left nonempty) (cuts_of_step not_blank hs).1

theorem Dangles.not_symbol {occurrence : Occurrence} (h : Dangles level c)
    (not_blank : ¬ Blank c.text) : level.step c.trim ≠ .symbol occurrence := by
  intro hs
  obtain ⟨f, failed, -⟩ := h
  rw [result_of_symbol not_blank hs] at failed
  cases failed

/-- No construct with one operand runs out. -/
theorem Dangles.not_enclose {enclosure : Enclosure} {operand : Cursor} (h : Dangles level c)
    (not_blank : ¬ Blank c.text) : level.step c.trim ≠ .enclose enclosure operand := by
  intro hs
  obtain ⟨rfl, -⟩ := cuts_of_step not_blank hs
  have rank := h.rank not_blank
  have := enclosure.rank_level_le
  omega

/-- A power that runs out has a base, and its exponent runs out. -/
theorem Dangles.of_power {base exponent : Cursor} (h : Dangles level c) (not_blank : ¬ Blank c.text)
    (hs : level.step c.trim = .power base op exponent) :
    (∃ left, (run .transpose base).result = .ok left) ∧ Dangles .unary exponent := by
  obtain ⟨-, -, text, at_base, at_exponent⟩ := cuts_of_step not_blank hs
  obtain ⟨f, failed, stop, cause⟩ := h
  rw [result_of_power not_blank hs] at failed
  rcases Run.result_andThen_eq_error.1 failed with failed | ⟨left, ok, failed⟩
  · -- the base ends in front of the operator
    obtain ⟨e, base_failed, rfl⟩ := Run.result_mapFailure_eq_error.1 failed
    have inside := (position_of_run base_failed).2
    rw [Failure.position_ofOperand] at stop
    simp only [Cursor.stop, Cursor.length, text, List.length_append, List.length_cons] at *
    omega
  · obtain ⟨e, exponent_failed, rfl⟩ :=
      Run.result_mapFailure_eq_error.1 (Run.result_map_eq_error.1 failed)
    have at_stop : exponent.trim.stop = c.trim.trim.stop :=
      stop_trim_part (l := base.text ++ [op.symbol]) (Cursor.core_trim not_blank)
        (by simp [text]) (by simp [at_exponent, Cursor.length]; omega)
    rw [Failure.position_ofOperand, ← Cursor.trim_trim, ← at_stop] at stop
    exact ⟨⟨left, Run.result_mapFailure_eq_ok.1 ok⟩, e, exponent_failed, stop,
      Failure.cause_of_ofOperand cause⟩

theorem Folded.position_of_asOperand
    (failed : (folded.asOperand op c (run next c)).result = .error f) : f.position ≤ c.stop := by
  obtain ⟨side, around, eq⟩ := folded.exists_asOperand_eq op
  rw [eq] at failed
  obtain ⟨e, alone, rfl⟩ := Run.result_mapFailure_eq_error.1 failed
  rw [Failure.position_ofOperand]
  exact (position_of_run alone).2

/-- What a chain makes of its first operand: it goes on behind it, reads on with a wider one, or
stops with the failure of the operand. -/
theorem result_chain_cons (next : Level) (folded : Folded) (pending : Cursor) (op : BinaryOperator)
    (text : List Char) (rest : List Piece) :
    (∃ operand, (run next pending).result = .ok operand ∧
      (chain next folded pending ((op, text) :: rest)).result =
        (chain next (some (folded.join operand, op)) (pending.beyond text) rest).result) ∨
    (op.canSign = true ∧ Dangles next pending ∧
      (chain next folded pending ((op, text) :: rest)).result =
        (chain next folded (pending.widen op text) rest).result) ∨
    ∃ f, (folded.asOperand op pending (run next pending)).result = .error f ∧
      (chain next folded pending ((op, text) :: rest)).result = .error f := by
  cases result : (folded.asOperand op pending (run next pending)).result with
  | ok operand =>
    have ok := Folded.result_asOperand_eq_ok.1 result
    exact .inl ⟨operand, ok, result_chain_cons_of_ok ok⟩
  | error f =>
    by_cases dangling : (op.canSign && f.isDangling pending) = true
    · obtain ⟨sign, dangling⟩ := Bool.and_eq_true_iff.1 dangling
      have dangles := Folded.dangles_of_asOperand result dangling
      exact .inr (.inl ⟨sign, dangles, result_chain_cons_of_dangles sign dangles⟩)
    · exact .inr (.inr ⟨f, rfl, result_chain_cons_of_error result dangling⟩)

/-- The chain fails at its end, for want of an operand. -/
def ChainDangles (next : Level) (folded : Folded) (pending : Cursor) (tail : List Piece) : Prop :=
  ∃ f, (chain next folded pending tail).result = .error f ∧
    f.position = pending.start + (joined symbol pending.text tail).length ∧
    (f.cause = .emptyInput ∨ f.cause.kind = .missingOperand)

theorem ChainDangles.of_nil (h : ChainDangles next folded pending [])
    (last : ∀ x ∈ pending.text.getLast?, isBlank x = false) : Dangles next pending := by
  obtain ⟨f, failed, stop, cause⟩ := h
  rw [chain_nil] at failed
  rw [joined_nil, ← Cursor.stop_trim pending.start last] at stop
  exact Folded.dangles_of_asLast (Run.result_map_eq_error.1 failed) stop cause

/-- A chain that runs out reads its first operand, or reads on with a wider one. -/
theorem ChainDangles.of_cons (h : ChainDangles next folded pending ((op, text) :: rest)) :
    (∃ operand, (run next pending).result = .ok operand ∧
      ChainDangles next (some (folded.join operand, op)) (pending.beyond text) rest) ∨
    (op.canSign = true ∧ Dangles next pending ∧
      ChainDangles next folded (pending.widen op text) rest) := by
  obtain ⟨f, failed, stop, cause⟩ := h
  rcases result_chain_cons next folded pending op text rest with
    ⟨operand, ok, same⟩ | ⟨sign, dangles, same⟩ | ⟨f', operand, failed'⟩
  · refine .inl ⟨operand, ok, f, same ▸ failed, ?_, cause⟩
    rw [stop, pending.stop_beyond op text rest]
  · refine .inr ⟨sign, dangles, f, same ▸ failed, ?_, cause⟩
    rw [stop, Cursor.widen, joined_append_cons]
  · -- the end is behind the operator
    obtain rfl := Except.error.inj (failed'.symm.trans failed)
    have before := Folded.position_of_asOperand operand
    simp only [stop, joined_cons, Cursor.stop, Cursor.length, List.length_append,
      List.length_cons] at before
    omega

theorem Dangles.of_chain {head : Cursor} {tail : List Piece} (h : Dangles level c)
    (not_blank : ¬ Blank c.text) (hs : level.step c.trim = .chain next head tail) :
    ChainDangles next none head tail := by
  obtain ⟨-, at_head, text, -⟩ := cuts_of_step not_blank hs
  obtain ⟨f, failed, stop, cause⟩ := h
  rw [result_of_chain not_blank hs] at failed
  exact ⟨f, failed, by rw [stop, at_head, text]; rfl, cause⟩

/-! ### Completion -/

/-- The text of an operand with a sign. -/
def signedOperand : List Char := ['-', 'x']

theorem exists_written_signedOperand (hv : Blank v) (rank : 2 ≤ level.rank) (start : Nat) :
    ∃ o, Written level start (v ++ signedOperand) o := by
  have name : IsName ['x'] := by decide
  have operand : Written .transpose (start + v.length + 1) ['x'] _ :=
    .tighter rfl (.symbol (v := []) (w := []) name blank_nil blank_nil)
  exact ⟨_, (Written.signed .minus hv operand).loosen rank⟩

/-- Whatever completes the core of a cursor completes the cursor. -/
theorem exists_written_of_trim (not_blank : ¬ Blank c.text)
    (h : ∀ w, Blank w → ∃ o, Written level c.trim.start (c.trim.text ++ w ++ text) o) :
    ∀ w, Blank w → ∃ o, Written level c.start (c.text ++ w ++ text) o := by
  intro w hw
  obtain ⟨v, u, w', hv, -, hw', eq, trimmed⟩ := Cursor.exists_trim not_blank
  obtain ⟨o, written⟩ := h (w' ++ w) (blank_append.2 ⟨hw', hw⟩)
  rw [trimmed] at written
  have padded := written.pad hv blank_nil c.start rfl
  exact ⟨o, by simpa [eq] using padded⟩

/-- A text that runs out is completed by a signed operand, with any blanks between them. -/
theorem Dangles.exists_written : ∀ (level : Level) (c : Cursor), Dangles level c → 2 ≤ level.rank →
    ∀ w, Blank w → ∃ o, Written level c.start (c.text ++ w ++ signedOperand) o := by
  refine (parse_induction
    (P := fun level c => Dangles level c → 2 ≤ level.rank → ∀ w, Blank w →
      ∃ o, Written level c.start (c.text ++ w ++ signedOperand) o)
    (Q := fun next folded pending tail => ∀ level start before, level.Chains next →
      (∀ p ∈ tail, p.1 ∈ level.operators) → folded.Stands level start before →
      pending.start = start + before.length →
      (∀ x ∈ (joined symbol pending.text tail).getLast?, isBlank x = false) →
      ChainDangles next folded pending tail → ∀ w, Blank w →
        ∃ o, Written level start
          (before ++ joined symbol pending.text tail ++ w ++ signedOperand) o)
    ?blank ?fail ?symbol ?descend ?enclose ?power ?chain ?last ?more).1
  case blank =>
    intro level c blank _ rank w hw
    exact exists_written_signedOperand (blank_append.2 ⟨blank, hw⟩) rank c.start
  case fail =>
    intro level c cause position not_blank hs dangles
    exact absurd hs (dangles.not_fail not_blank)
  case symbol =>
    intro level c occurrence not_blank hs dangles
    exact absurd hs (dangles.not_symbol not_blank)
  case descend =>
    intro level c next not_blank hs ih dangles _
    have inner := dangles.of_descend not_blank hs
    have rank := inner.rank (Cursor.core_trim not_blank).not_blank
    refine exists_written_of_trim not_blank fun w hw => ?_
    obtain ⟨o, written⟩ := ih inner (Nat.le_of_succ_le rank) w hw
    exact ⟨o, .tighter (cuts_of_step not_blank hs) written⟩
  case enclose =>
    intro level c enclosure operand not_blank hs _ dangles
    exact absurd hs (dangles.not_enclose not_blank)
  case power =>
    intro level c base op exponent not_blank hs _ ih_exponent dangles _
    obtain ⟨rfl, mem, text, at_base, at_exponent⟩ := cuts_of_step not_blank hs
    obtain ⟨⟨left, ok⟩, exponent_dangles⟩ := dangles.of_power not_blank hs
    refine exists_written_of_trim not_blank fun w hw => ?_
    obtain ⟨right, written⟩ := ih_exponent exponent_dangles (by decide) w hw
    have base_written := written_of_run _ _ _ ok
    rw [at_base] at base_written
    rw [at_exponent] at written
    refine ⟨.binary left op right, ?_⟩
    rw [text]
    simpa using Written.power mem base_written written
  case chain =>
    intro level c next head tail not_blank hs ih dangles _
    obtain ⟨chains, at_head, text, mem⟩ := cuts_of_step not_blank hs
    refine exists_written_of_trim not_blank fun w hw => ?_
    have last := (Cursor.core_trim not_blank).last
    rw [← text] at last ⊢
    exact ih level c.trim.start [] chains mem rfl at_head last (dangles.of_chain not_blank hs) w hw
  case last =>
    intro next folded pending ih level start before chains _ stands at_pending last dangles w hw
    rw [joined_nil] at last ⊢
    have rank : 2 ≤ next.rank := by cases chains <;> decide
    obtain ⟨operand, written⟩ := ih (dangles.of_nil last) rank w hw
    rw [at_pending] at written
    refine ⟨folded.join operand, ?_⟩
    simpa using stands.join chains written
  case more =>
    intro next folded pending op text rest ih ih_beyond ih_widened level start before chains mem
      stands at_pending last dangles w hw
    have op_mem : op ∈ level.operators := mem _ List.mem_cons_self
    have rest_mem : ∀ p ∈ rest, p.1 ∈ level.operators := fun p hp =>
      mem p (List.mem_cons_of_mem _ hp)
    rcases dangles.of_cons with ⟨operand, ok, beyond⟩ | ⟨-, -, widened⟩
    · have written := written_of_run _ _ _ ok
      rw [at_pending] at written
      rw [joined_cons] at last
      rw [append_joined_cons]
      exact ih_beyond operand level start _ chains rest_mem
        ⟨op_mem, _, rfl, stands.join chains written⟩ (Cursor.start_beyond op text at_pending)
        (fun x mem => last x (mem_getLast?_append_cons mem)) beyond w hw
    · rw [← joined_append_cons] at last ⊢
      exact ih_widened level start before chains rest_mem stands at_pending last widened w hw

/-! ### What is in order -/

/-- What is parsed, or fails at its right end only, for want of an operand. -/
def InOrder (level : Level) (c : Cursor) : Prop :=
  (∃ o, (run level c).result = .ok o) ∨ Dangles level c

/-- What is in order has closed no bracket more often than opened, wherever one stops reading. -/
theorem InOrder.nonneg (h : InOrder level c) (not_blank : ¬ Blank c.text) (text : c.text = l ++ r) :
    (Depth.zero.through l).Nonneg := by
  rcases h with ⟨o, ok⟩ | dangles
  · exact (written_of_run _ _ _ ok).derives.nested.nonneg text
  · have rank := Nat.le_of_succ_le (dangles.rank not_blank)
    obtain ⟨o, written⟩ := Dangles.exists_written level c dangles rank [] blank_nil
    refine written.derives.nested.nonneg (q := r ++ signedOperand) ?_
    simp [text]

theorem InOrder.trim (h : InOrder level c) : InOrder level c.trim := by
  rcases h with ⟨o, ok⟩ | dangles
  · exact .inl ⟨o, by rwa [run_congr Cursor.trim_trim]⟩
  · exact .inr (dangles.congr Cursor.trim_trim.symm)

theorem InOrder.of_descend (h : InOrder level c) (not_blank : ¬ Blank c.text)
    (hs : level.step c.trim = .descend next) : InOrder next c.trim := by
  rcases h with ⟨o, ok⟩ | dangles
  · exact .inl ⟨o, (result_of_descend not_blank hs).symm.trans ok⟩
  · exact .inr (dangles.of_descend not_blank hs)

theorem InOrder.of_enclose {enclosure : Enclosure} {operand : Cursor} (h : InOrder level c)
    (not_blank : ¬ Blank c.text) (hs : level.step c.trim = .enclose enclosure operand) :
    InOrder enclosure.operandLevel operand := by
  rcases h with ⟨o, ok⟩ | dangles
  · rw [result_of_enclose not_blank hs] at ok
    obtain ⟨inner, ok, -⟩ := Run.result_map_eq_ok.1 ok
    exact .inl ⟨inner, Run.result_mapFailure_eq_ok.1 ok⟩
  · exact absurd hs (dangles.not_enclose not_blank)

theorem InOrder.of_power {base exponent : Cursor} (h : InOrder level c) (not_blank : ¬ Blank c.text)
    (hs : level.step c.trim = .power base op exponent) :
    (∃ left, (run .transpose base).result = .ok left) ∧ InOrder .unary exponent := by
  rcases h with ⟨o, ok⟩ | dangles
  · rw [result_of_power not_blank hs] at ok
    obtain ⟨left, base_ok, ok⟩ := Run.result_andThen_eq_ok.1 ok
    obtain ⟨right, exponent_ok, -⟩ := Run.result_map_eq_ok.1 ok
    exact ⟨⟨left, Run.result_mapFailure_eq_ok.1 base_ok⟩,
      .inl ⟨right, Run.result_mapFailure_eq_ok.1 exponent_ok⟩⟩
  · obtain ⟨base_ok, exponent⟩ := dangles.of_power not_blank hs
    exact ⟨base_ok, .inr exponent⟩

/-- A chain that succeeds, or runs out at its end. -/
def ChainInOrder (next : Level) (folded : Folded) (pending : Cursor) (tail : List Piece) : Prop :=
  (∃ o, (chain next folded pending tail).result = .ok o) ∨ ChainDangles next folded pending tail

theorem InOrder.of_chain {head : Cursor} {tail : List Piece} (h : InOrder level c)
    (not_blank : ¬ Blank c.text) (hs : level.step c.trim = .chain next head tail) :
    ChainInOrder next none head tail := by
  rcases h with ⟨o, ok⟩ | dangles
  · exact .inl ⟨o, (result_of_chain not_blank hs).symm.trans ok⟩
  · exact .inr (dangles.of_chain not_blank hs)

theorem ChainInOrder.of_nil (h : ChainInOrder next folded pending [])
    (last : ∀ x ∈ pending.text.getLast?, isBlank x = false) : InOrder next pending := by
  rcases h with ⟨o, ok⟩ | dangles
  · rw [chain_nil] at ok
    obtain ⟨operand, ok, -⟩ := Run.result_map_eq_ok.1 ok
    exact .inl ⟨operand, Folded.result_asLast_eq_ok.1 ok⟩
  · exact .inr (dangles.of_nil last)

theorem ChainInOrder.of_cons (h : ChainInOrder next folded pending ((op, text) :: rest)) :
    (∃ operand, (run next pending).result = .ok operand ∧
      ChainInOrder next (some (folded.join operand, op)) (pending.beyond text) rest) ∨
    (op.canSign = true ∧ Dangles next pending ∧
      ChainInOrder next folded (pending.widen op text) rest) := by
  rcases h with ⟨o, ok⟩ | dangles
  · rcases result_chain_cons next folded pending op text rest with
      ⟨operand, operand_ok, same⟩ | ⟨sign, dangles, same⟩ | ⟨f, -, failed⟩
    · exact .inl ⟨operand, operand_ok, .inl ⟨o, same ▸ ok⟩⟩
    · exact .inr ⟨sign, dangles, .inl ⟨o, same ▸ ok⟩⟩
    · cases failed.symm.trans ok
  · rcases dangles.of_cons with ⟨operand, operand_ok, beyond⟩ | ⟨sign, dangles, widened⟩
    · exact .inl ⟨operand, operand_ok, .inr beyond⟩
    · exact .inr ⟨sign, dangles, .inr widened⟩

end Formula
