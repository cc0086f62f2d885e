import Formula.Proofs.Nesting
import Formula.Proofs.Soundness

/-!
# The parser returns what is derived

Whatever is written in a cursor is what the run of the cursor returns (`run_of_written`). The
difficulty is with the signs. The parser cuts a sum at every additive operator outside brackets and
finds out afterwards which of them were signs. What makes this work is that the text in front of a
sign, parsed alone, always runs out at its right end (`SignsOnly`).
-/

namespace Formula

open BinaryOperator (symbol among? additive multiplicative powers)

variable {level next : Level} {start : Nat} {l r text u v w x : List Char} {op : BinaryOperator}
  {operators : List BinaryOperator} {folded : Folded} {o p : Outcome}

/-! ### Chains of a core -/

/-- The chain that a level makes of a text. -/
def Level.chainOf (level next : Level) (start : Nat) (text : List Char) : Run Outcome :=
  chain next none ⟨(pieces (among? level.operators) .zero text).1, start⟩
    (pieces (among? level.operators) .zero text).2

theorem Level.Chains.result_run (h : level.Chains next) (hu : Core u) :
    (run level ⟨u, start⟩).result = (level.chainOf next start u).result :=
  result_run_of_chain hu (step_of_chains h)

/-- Each of the operators that stands outside brackets is a sign: the text in front of it, parsed
alone, runs out. -/
def SignsOnly (operators : List BinaryOperator) (level : Level) (start : Nat) (text : List Char) :
    Prop :=
  ∀ p op q, text = p ++ op.symbol :: q → op ∈ operators → Depth.zero.through p = .zero →
    op.canSign = true ∧ Dangles level ⟨p, start⟩

theorem Hides.signsOnly (h : Hides operators text) : SignsOnly operators level start text :=
  fun p op q eq mem outside => absurd outside (h p op q eq mem)

/-- Blanks in front of a text that runs out may be left out. -/
theorem Dangles.of_append (h : Dangles level ⟨v ++ u, start⟩) (hv : Blank v) :
    Dangles level ⟨u, start + v.length⟩ := by
  by_cases blank : Blank u
  · exact dangles_of_blank blank
  · apply h.congr
    simpa using Cursor.trim_append start hv blank_nil blank

theorem SignsOnly.of_append (h : SignsOnly operators level start (v ++ u ++ w)) (hv : Blank v) :
    SignsOnly operators level (start + v.length) u := by
  rintro p op q rfl mem outside
  have through : Depth.zero.through (v ++ p) = .zero := by rw [hv.through_append, outside]
  obtain ⟨sign, dangles⟩ := h (v ++ p) op (q ++ w) (by simp) mem through
  exact ⟨sign, dangles.of_append hv⟩

/-- Where all operators are signs there is one operand. -/
theorem SignsOnly.result_chain (h : SignsOnly operators next start text) :
    (chain next folded ⟨(pieces (among? operators) .zero text).1, start⟩
      (pieces (among? operators) .zero text).2).result =
      (chain next folded ⟨text, start⟩ []).result := by
  have dangles : ∀ before op piece behind,
      (pieces (among? operators) .zero text).2 = before ++ (op, piece) :: behind →
      op.canSign = true ∧
        Dangles next ⟨joined symbol (pieces (among? operators) .zero text).1 before, start⟩ := by
    intro before op piece behind eq
    obtain ⟨mem, outside, whole⟩ := eq_of_pieces_eq eq
    exact h _ op _ whole mem outside
  have one : (chain next folded _ (_ ++ [])).result = (chain next folded _ []).result :=
    result_chain_of_dangles dangles
  rwa [List.append_nil, joined_pieces_among?] at one

/-- Behind an operator outside brackets the chain of a text has one operand more. -/
theorem result_chainOf_append (mem : op ∈ level.operators)
    (outside : Depth.zero.through l = .zero)
    (left : (level.chainOf next start l).result = .ok o)
    (signs : SignsOnly level.operators next (start + l.length + 1) r) :
    (level.chainOf next start (l ++ op.symbol :: r)).result =
      (((run next ⟨r, start + l.length + 1⟩).asOperand .right op
        ⟨r, start + l.length + 1⟩).map (.binary o op)).result := by
  rw [Level.chainOf, pieces_append_operator mem outside, result_chain_append left,
    joined_pieces_among?, signs.result_chain, chain_nil]
  rfl

/-- The chain of a text has the outcome, whatever blanks are left out at its ends. -/
def Chained (level : Level) (start : Nat) (text : List Char) (o : Outcome) : Prop :=
  ∀ next v u w, level.Chains next → text = v ++ u ++ w → Blank v → Blank w →
    (level.chainOf next (start + v.length) u).result = .ok o

/-! ### Operands that run out -/

/-- Without the blanks around it, a text that is parsed is parsed to the same outcome. -/
theorem result_run_of_append (ok : (run level ⟨v ++ u ++ w, start⟩).result = .ok o) (hv : Blank v)
    (hw : Blank w) : (run level ⟨u, start + v.length⟩).result = .ok o := by
  have whole : ¬ Blank (v ++ u ++ w) := (written_of_run _ _ _ ok).derives.not_blank
  have not_blank : ¬ Blank u := fun hu => whole (blank_append.2 ⟨blank_append.2 ⟨hv, hu⟩, hw⟩)
  rwa [← run_append level start hv hw not_blank]

/-- Without the blanks behind it, a text that runs out does so at its last character. -/
theorem Dangles.exists_failure (h : Dangles level ⟨x ++ w, start⟩) (hw : Blank w)
    (last : ∀ c ∈ x.getLast?, isBlank c = false) :
    ∃ f, (run level ⟨x, start⟩).result = .error f ∧ f.position = start + x.length ∧
      (f.cause = .emptyInput ∨ f.cause.kind = .missingOperand) := by
  have shorter : Dangles level ⟨x, start⟩ := by
    by_cases blank : Blank x
    · exact dangles_of_blank blank
    · apply h.congr
      simpa using Cursor.trim_append start blank_nil hw blank
  obtain ⟨f, failed, position, cause⟩ := shorter
  rw [Cursor.stop_trim start last] at position
  exact ⟨f, failed, position, cause⟩

/-- Where a run is left to the right operand of an operator, it runs out if the operand does. -/
theorem Dangles.of_right_operand {g : Outcome → Outcome} (hv : Blank v) (hw : Blank w)
    (core : Core (l ++ op.symbol :: x)) (last : ∀ c ∈ x.getLast?, isBlank c = false)
    (left_to : (run level ⟨l ++ op.symbol :: x, start + v.length⟩).result =
      (((run next ⟨x, start + v.length + l.length + 1⟩).asOperand .right op
        ⟨x, start + v.length + l.length + 1⟩).map g).result)
    (h : Dangles next ⟨x ++ w, start + (v ++ l).length + 1⟩) :
    Dangles level ⟨v ++ l ++ op.symbol :: (x ++ w), start⟩ := by
  have around : v ++ l ++ op.symbol :: (x ++ w) = v ++ (l ++ op.symbol :: x) ++ w := by simp
  -- the operand ends where the core ends, so it runs out at the end of both
  rw [List.length_append, ← Nat.add_assoc] at h
  obtain ⟨f, failed, position, cause⟩ := h.exists_failure hw last
  refine ⟨.ofOperand .right op ⟨x, start + v.length + l.length + 1⟩ f, ?_, ?_,
    .inr (kind_ofOperand cause)⟩
  · rw [around, run_append level start hv hw core.not_blank, left_to]
    exact Run.result_map_asOperand_of_error failed
  · rw [around, Cursor.trim_core start hv core hw, Failure.position_ofOperand, position]
    simp [Cursor.stop]
    omega

/-- A power of a base that is parsed is left to its exponent. -/
theorem result_run_power (mem : op ∈ powers) (left : (run .transpose ⟨l, start⟩).result = .ok o)
    (core : Core (l ++ op.symbol :: r)) :
    (run .exponential ⟨l ++ op.symbol :: r, start⟩).result =
      (((run .unary ⟨r, start + l.length + 1⟩).asOperand .right op
        ⟨r, start + l.length + 1⟩).map (.binary o op)).result := by
  have derives := (written_of_run _ _ _ left).derives
  have step : Level.exponential.step ⟨l ++ op.symbol :: r, start⟩ =
      .power ⟨l, start⟩ op ⟨r, start + l.length + 1⟩ :=
    step_power_iff.2 ⟨mem, derives.nested.through .zero, derives.hides.mono (by decide), rfl, rfl,
      rfl⟩
  exact result_run_of_power core step left

/-- A power runs out if its exponent does. -/
theorem Dangles.power (mem : op ∈ powers)
    (left : (run .transpose ⟨l, start⟩).result = .ok o)
    (h : Dangles .unary ⟨x, start + l.length + 1⟩) :
    Dangles .exponential ⟨l ++ op.symbol :: x, start⟩ := by
  have not_blank : ¬ Blank l := (written_of_run _ _ _ left).derives.not_blank
  obtain ⟨v, l, x, w, hv, hw, rfl, rfl, core, last⟩ :=
    exists_core_append_cons op.isBlank_symbol not_blank x
  have base : (run .transpose ⟨l, start + v.length⟩).result = .ok o :=
    result_run_of_append (w := []) (by simpa using left) hv blank_nil
  exact h.of_right_operand hv hw core last (result_run_power mem base core)

/-- A chain runs out if its last operand does. -/
theorem Dangles.chain (chains : level.Chains next) (mem : op ∈ level.operators)
    (left : (run level ⟨l, start⟩).result = .ok o) (chained : Chained level start l o)
    (signs : SignsOnly level.operators next (start + l.length + 1) x)
    (h : Dangles next ⟨x, start + l.length + 1⟩) :
    Dangles level ⟨l ++ op.symbol :: x, start⟩ := by
  have not_blank : ¬ Blank l := (written_of_run _ _ _ left).derives.not_blank
  obtain ⟨v, l, x, w, hv, hw, rfl, rfl, core, last⟩ :=
    exists_core_append_cons op.isBlank_symbol not_blank x
  -- the chain reads the operands in front as it does alone, and only the last one is left
  have base : (run level ⟨l, start + v.length⟩).result = .ok o :=
    result_run_of_append (w := []) (by simpa using left) hv blank_nil
  have outside := (written_of_run _ _ _ base).derives.nested.through .zero
  have before := chained next v l [] chains (by simp) hv blank_nil
  have around : SignsOnly level.operators next (start + (v ++ l).length + 1) ([] ++ x ++ w) :=
    signs
  have behind := around.of_append blank_nil
  rw [List.length_append, ← Nat.add_assoc] at behind
  have left_to := (chains.result_run core).trans (result_chainOf_append mem outside before behind)
  exact h.of_right_operand hv hw core last left_to

/-! ### What tighter levels parse -/

/-- Where all operators of a chain are signs, the text is left to the next level. -/
theorem Level.Chains.result_run_of_signsOnly (chains : level.Chains next)
    (signs : SignsOnly level.operators next start text) (not_blank : ¬ Blank text) :
    (run level ⟨text, start⟩).result = (run next ⟨text, start⟩).result := by
  obtain ⟨v, u, w, hv, hu, hw, rfl⟩ := exists_core not_blank
  rw [run_append level start hv hw hu.not_blank, run_append next start hv hw hu.not_blank,
    chains.result_run hu, Level.chainOf, (signs.of_append hv).result_chain, chain_nil]
  cases result : (run next ⟨u, start + v.length⟩).result with
  | ok o => exact Run.result_map_eq_ok.2 ⟨o, result, rfl⟩
  | error f => exact Run.result_map_eq_error.2 result

/-- A text without the operators of a level is left to the next one. -/
theorem result_run_of_hides (h : level.next? = some next) (rank : 3 ≤ level.rank)
    (hides : Hides level.operators text) (not_blank : ¬ Blank text) :
    (run level ⟨text, start⟩).result = (run next ⟨text, start⟩).result := by
  cases level <;> cases h
  case additive => exact Level.Chains.sums.result_run_of_signsOnly hides.signsOnly not_blank
  case multiplicative =>
    exact Level.Chains.products.result_run_of_signsOnly hides.signsOnly not_blank
  case exponential =>
    obtain ⟨v, u, w, hv, hu, hw, rfl⟩ := exists_core not_blank
    have core_hides : Hides powers u := hides.of_blank_append hv
    rw [run_append _ start hv hw hu.not_blank, run_append _ start hv hw hu.not_blank]
    exact result_run_of_descend hu (step_exponential_iff.2 core_hides)
  all_goals exact absurd rank (by decide)

theorem Dangles.of_next (h : level.next? = some next) (rank : 3 ≤ level.rank)
    (hides : Hides level.operators x) (dangles : Dangles next ⟨x, start⟩) :
    Dangles level ⟨x, start⟩ := by
  by_cases blank : Blank x
  · exact dangles_of_blank blank
  · obtain ⟨f, failed, position⟩ := dangles
    exact ⟨f, (result_run_of_hides h rank hides blank).trans failed, position⟩

/-- The signs of an operand are signs for the looser level, too. -/
theorem SignsOnly.of_next (h : level.next? = some next) (rank : 3 ≤ level.rank)
    (hides : Hides level.operators text) (signs : SignsOnly operators next start text) :
    SignsOnly operators level start text := by
  rintro p op q rfl mem outside
  obtain ⟨sign, dangles⟩ := signs p op q rfl mem outside
  exact ⟨sign, dangles.of_next h rank hides.of_append⟩

theorem notMem_additive (h : op ∈ multiplicative ++ powers) : op ∉ additive := by
  revert h
  cases op <;> decide

/-- The additive operators outside brackets are signs in both operands of an operator that binds
more tightly. -/
theorem SignsOnly.binary (mem : op ∉ additive) (nested : Nested l)
    (left : SignsOnly additive level start l)
    (right : SignsOnly additive next (start + l.length + 1) r)
    (runs_out : ∀ x y, r = x ++ y → Dangles next ⟨x, start + l.length + 1⟩ →
      Dangles level ⟨l ++ op.symbol :: x, start⟩) :
    SignsOnly additive level start (l ++ op.symbol :: r) := by
  -- an additive operator is in the left operand, or in the right one behind the operator
  intro p op' q eq op'_mem outside
  rcases append_cons_eq_append_cons eq.symm with ⟨m, rfl⟩ | ⟨-, same⟩ | ⟨x, rfl, rfl⟩
  · exact left p op' m rfl op'_mem outside
  · rw [BinaryOperator.symbol_injective same] at op'_mem
    exact absurd op'_mem mem
  · rw [Depth.through_append, nested.through, Depth.through_cons,
      Depth.after_of_isBracket_eq_false op.isBracket_symbol] at outside
    obtain ⟨sign, dangles⟩ := right x op' q rfl op'_mem outside
    exact ⟨sign, runs_out x (op'.symbol :: q) rfl dangles⟩

/-! ### Every derivation is found -/

/-- What is proved of a text by induction on what is written there. -/
structure Parsed (level : Level) (start : Nat) (text : List Char) (o : Outcome) : Prop where
  runs : (run level ⟨text, start⟩).result = .ok o
  signs : level ≠ .additive → SignsOnly additive level start text
  chained : Chained level start text o

theorem chained_of_forall (h : ∀ next, ¬ level.Chains next) : Chained level start text o :=
  fun next _ _ _ chains => absurd chains (h next)

/-- A chain that succeeds on the core of a text succeeds on the text. -/
theorem Chained.runs (h : Chained level start text o) (chains : level.Chains next)
    (not_blank : ¬ Blank text) : (run level ⟨text, start⟩).result = .ok o := by
  obtain ⟨v, u, w, hv, hu, hw, rfl⟩ := exists_core not_blank
  rw [run_append level start hv hw hu.not_blank, chains.result_run hu]
  exact h next v u w chains rfl hv hw

/-- In an operand of a chain the operators of the chain are signs. -/
theorem Level.Chains.signsOnly (h : level.Chains next) (derives : Derives next text o.expr)
    (parsed : Parsed next start text o) : SignsOnly level.operators next start text := by
  cases h with
  | sums => exact parsed.signs (by decide)
  | products => exact derives.hides.signsOnly

/-- One operand is a chain. -/
theorem Level.Chains.chained_of_next (chains : level.Chains next)
    (derives : Derives next text o.expr) (parsed : Parsed next start text o) :
    Chained level start text o := by
  intro next' v u w chains' eq hv hw
  obtain rfl := chains.unique chains'
  -- every operator that the chain is cut at is a sign of this one operand
  have signs := chains.signsOnly derives parsed
  have ok := parsed.runs
  rw [eq] at signs ok
  rw [Level.chainOf, (signs.of_append hv).result_chain, chain_nil]
  exact Run.result_map_eq_ok.2 ⟨o, result_run_of_append ok hv hw, rfl⟩

/-- A chain and one operand more are a chain. -/
theorem Level.Chains.chained_binary (chains : level.Chains next) (mem : op ∈ level.operators)
    (nested : Nested l) (left : Parsed level start l o)
    (derives : Derives next r p.expr) (right : Parsed next (start + l.length + 1) r p) :
    Chained level start (l ++ op.symbol :: r) (.binary o op p) := by
  intro next' v u w chains' eq hv hw
  obtain rfl := chains.unique chains'
  -- the blanks in front belong to the left operand, those behind to the right one
  obtain ⟨l, r, rfl, rfl, rfl⟩ := exists_of_append_cons_eq op.isBlank_symbol hv hw eq
  have outside : Depth.zero.through l = .zero := by
    rw [← hv.through_append, nested.through]
  have before := left.chained next v l [] chains (by simp) hv blank_nil
  have signs : SignsOnly level.operators next (start + (v ++ l).length + 1) ([] ++ r ++ w) :=
    chains.signsOnly derives right
  have operand : (run next ⟨r, start + (v ++ l).length + 1⟩).result = .ok p :=
    result_run_of_append (v := []) right.runs blank_nil hw
  have signs_core := signs.of_append blank_nil
  rw [List.length_append, ← Nat.add_assoc] at signs_core operand
  rw [result_chainOf_append mem outside before signs_core]
  exact Run.result_map_asOperand_of_ok operand

/-- A tighter level that hides the additive operators has neither signs nor chains. -/
theorem Derives.parsed (derives : Derives level text o.expr) (hidden : additive ⊆ level.hidden)
    (runs : (run level ⟨text, start⟩).result = .ok o) : Parsed level start text o := by
  refine ⟨runs, fun _ => (derives.hides.mono hidden).signsOnly, chained_of_forall ?_⟩
  intro next chains
  cases chains <;> exact absurd hidden (by decide)

theorem Parsed.sum (mem : op ∈ additive) (hl : Written .additive start l o)
    (hr : Written .multiplicative (start + l.length + 1) r p) (left : Parsed .additive start l o)
    (right : Parsed .multiplicative (start + l.length + 1) r p) :
    Parsed .additive start (l ++ op.symbol :: r) (.binary o op p) := by
  have chained := Level.Chains.sums.chained_binary mem hl.derives.nested left hr.derives right
  exact ⟨chained.runs .sums (Written.sum mem hl hr).derives.not_blank, absurd rfl, chained⟩

theorem Parsed.product (mem : op ∈ multiplicative) (hl : Written .multiplicative start l o)
    (hr : Written .exponential (start + l.length + 1) r p)
    (left : Parsed .multiplicative start l o)
    (right : Parsed .exponential (start + l.length + 1) r p) :
    Parsed .multiplicative start (l ++ op.symbol :: r) (.binary o op p) := by
  have chained := Level.Chains.products.chained_binary mem hl.derives.nested left hr.derives right
  have not_blank := (Written.product mem hl hr).derives.not_blank
  refine ⟨chained.runs .products not_blank, fun _ => ?_, chained⟩
  refine SignsOnly.binary (notMem_additive (List.mem_append_left _ mem)) hl.derives.nested
    (left.signs (by decide)) (right.signs (by decide)) ?_
  rintro x y rfl dangles
  exact dangles.chain .products mem left.runs left.chained hr.derives.hides.of_append.signsOnly

theorem Parsed.power (mem : op ∈ powers) (hl : Written .transpose start l o)
    (hr : Written .unary (start + l.length + 1) r p) (left : Parsed .transpose start l o)
    (right : Parsed .unary (start + l.length + 1) r p) :
    Parsed .exponential start (l ++ op.symbol :: r) (.binary o op p) := by
  refine ⟨?_, fun _ => ?_, chained_of_forall fun _ chains => nomatch chains⟩
  · obtain ⟨v, l, r, w, hv, hw, rfl, rfl, core, -⟩ :=
      exists_core_append_cons op.isBlank_symbol hl.derives.not_blank r
    have base : (run .transpose ⟨l, start + v.length⟩).result = .ok o :=
      result_run_of_append (w := []) (by simpa using left.runs) hv blank_nil
    have exponent : (run .unary ⟨r, start + (v ++ l).length + 1⟩).result = .ok p :=
      result_run_of_append (v := []) right.runs blank_nil hw
    rw [List.length_append, ← Nat.add_assoc] at exponent
    have around : v ++ l ++ op.symbol :: (r ++ w) = v ++ (l ++ op.symbol :: r) ++ w := by simp
    rw [around, run_append _ start hv hw core.not_blank, result_run_power mem base core]
    exact Run.result_map_asOperand_of_ok exponent
  · refine SignsOnly.binary (notMem_additive (List.mem_append_right _ mem)) hl.derives.nested
      (hl.derives.hides.mono (by decide)).signsOnly (right.signs (by decide)) ?_
    rintro x y rfl dangles
    exact dangles.power mem left.runs

theorem Parsed.signed (sign : Sign) (hv : Blank v)
    (operand : Written .transpose (start + v.length + 1) text o)
    (parsed : Parsed .transpose (start + v.length + 1) text o) :
    Parsed .unary start (v ++ sign.symbol :: text) (.signed sign o) := by
  have solid : isBlank sign.symbol = false := by cases sign <;> decide
  have plain : isBracket sign.symbol = false := by cases sign <;> decide
  refine ⟨?_, fun _ => ?_, chained_of_forall fun _ chains => nomatch chains⟩
  · obtain ⟨v', u, w, hv', hu, hw, rfl⟩ := exists_core operand.derives.not_blank
    have core : Core (sign.symbol :: (v' ++ u)) := (core_singleton solid).append hu v'
    have around : v ++ sign.symbol :: (v' ++ u ++ w) = v ++ (sign.symbol :: (v' ++ u)) ++ w := by
      simp
    rw [around, run_append _ start hv hw core.not_blank]
    exact result_run_of_enclose core (step_signed sign hv' hu)
      (result_run_of_append parsed.runs hv' hw)
  · -- nothing but blanks can stand in front of an operator that the operand does not hide
    intro p op q eq mem outside
    rcases append_cons_eq_append_cons eq.symm with ⟨m, rfl⟩ | ⟨rfl, -⟩ | ⟨x, rfl, rfl⟩
    · exact absurd hv (not_blank_append_cons op.isBlank_symbol)
    · exact ⟨BinaryOperator.canSign_iff.2 mem, dangles_of_blank hv⟩
    · rw [hv.through_append, Depth.through_cons, Depth.after_of_isBracket_eq_false plain] at outside
      exact absurd outside (operand.derives.hides x op q rfl (List.mem_append_left _
        (List.mem_append_left _ mem)))

theorem Parsed.transposed (hw : Blank w) (operand : Written .primary start text o)
    (parsed : Parsed .primary start text o) :
    Parsed .transpose start (text ++ transposeMark :: w) (.transposed o) := by
  refine (Written.transposed hw operand).derives.parsed (by decide) ?_
  obtain ⟨v, u, w', hv, hu, hw', rfl⟩ := exists_core operand.derives.not_blank
  have core : Core (u ++ w' ++ [transposeMark]) := hu.append (core_singleton (by decide)) w'
  have around : v ++ u ++ w' ++ transposeMark :: w = v ++ (u ++ w' ++ [transposeMark]) ++ w := by
    simp
  rw [around, run_append _ start hv hw core.not_blank]
  exact result_run_of_enclose core (step_transposed hu hw')
    (result_run_of_append parsed.runs hv hw')

theorem Parsed.group (before : Blank v) (behind : Blank w)
    (operand : Written .additive (start + v.length + 1) text o)
    (parsed : Parsed .additive (start + v.length + 1) text o) :
    Parsed .primary start (v ++ '(' :: (text ++ ')' :: w)) o := by
  refine (Written.group before behind operand).derives.parsed (by decide) ?_
  have core : Core ('(' :: (text ++ [')'])) :=
    (core_singleton (by decide)).append (core_singleton (by decide)) text
  have around : v ++ '(' :: (text ++ ')' :: w) = v ++ ('(' :: (text ++ [')'])) ++ w := by simp
  rw [around, run_append _ start before behind core.not_blank]
  exact result_run_of_enclose core (step_group operand.derives.not_blank) parsed.runs

theorem Parsed.applied {name : List Char} (isName : IsName name) (before : Blank u)
    (between : Blank v) (behind : Blank w)
    (operand : Written .additive (start + (u ++ name ++ v).length + 1) text o)
    (parsed : Parsed .additive (start + (u ++ name ++ v).length + 1) text o) :
    Parsed .primary start (u ++ name ++ v ++ '[' :: (text ++ ']' :: w))
      (.applied (String.ofList name) o) := by
  refine (Written.applied isName before between behind operand).derives.parsed (by decide) ?_
  have core : Core (name ++ v ++ '[' :: (text ++ [']'])) := by
    simpa using isName.core.append (core_singleton (c := ']') (by decide)) (v ++ '[' :: text)
  have around : u ++ name ++ v ++ '[' :: (text ++ ']' :: w) =
      u ++ (name ++ v ++ '[' :: (text ++ [']'])) ++ w := by simp
  have inner := parsed.runs
  rw [List.append_assoc u, List.length_append, ← Nat.add_assoc start] at inner
  rw [around, run_append _ start before behind core.not_blank]
  exact result_run_of_enclose core (step_applied isName between operand.derives.not_blank) inner

theorem Parsed.symbol {name : List Char} (isName : IsName name) (before : Blank v)
    (behind : Blank w) :
    Parsed .primary start (v ++ name ++ w) (.leaf ⟨String.ofList name, start + v.length⟩) := by
  refine (Written.symbol isName before behind).derives.parsed (by decide) ?_
  rw [run_append _ start before behind isName.not_blank]
  exact result_run_of_symbol isName.core (step_symbol isName)

/-- A primary begins with a parenthesis or a name, so the level of signs finds none. -/
theorem Derives.no_sign {t : Expr} (derives : Derives .transpose (v ++ u ++ w) t) (hv : Blank v)
    (hu : Core u) : ∀ c ∈ u.head?, Sign.ofChar? c = none := by
  intro c mem
  obtain ⟨rest, rfl⟩ := List.head?_eq_some_iff.1 mem
  have head : c = '(' ∨ isNameChar c = true :=
    derives.head (by decide) hv (hu.head c rfl) (r := rest ++ w) (by simp)
  rw [Sign.ofChar?, List.find?_eq_none]
  rintro sign - same
  obtain rfl : sign.symbol = c := by simpa using same
  revert head
  cases sign <;> decide

/-- A primary ends with a bracket or a name, so the level of conjugate transposes finds no mark. -/
theorem Derives.no_mark {t : Expr} (derives : Derives .primary (v ++ u ++ w) t) (hw : Blank w) :
    u.getLast? ≠ some transposeMark := by
  intro last
  obtain ⟨rest, rfl⟩ := List.getLast?_eq_some_iff.1 last
  have tip := derives.last hw (c := transposeMark) (l := v ++ rest) (by decide) (by simp)
  exact absurd tip (by decide)

/-- What begins with neither sign nor blank is no signed expression. -/
theorem Parsed.unary (derives : Derives .transpose text o.expr)
    (parsed : Parsed .transpose start text o) : Parsed .unary start text o := by
  refine ⟨?_, fun _ => (derives.hides.mono (by decide)).signsOnly,
    chained_of_forall fun _ chains => nomatch chains⟩
  obtain ⟨v, u, w, hv, hu, hw, rfl⟩ := exists_core derives.not_blank
  rw [run_append _ start hv hw hu.not_blank,
    result_run_of_descend hu (step_unary_iff.2 (derives.no_sign hv hu))]
  exact result_run_of_append parsed.runs hv hw

/-- What does not end with the mark of a conjugate transpose is none. -/
theorem Parsed.transpose (derives : Derives .primary text o.expr)
    (parsed : Parsed .primary start text o) : Parsed .transpose start text o := by
  refine (Derives.tighter rfl derives).parsed (by decide) ?_
  obtain ⟨v, u, w, hv, hu, hw, rfl⟩ := exists_core derives.not_blank
  rw [run_append _ start hv hw hu.not_blank,
    result_run_of_descend hu (step_transpose_iff.2 (derives.no_mark hw))]
  exact result_run_of_append parsed.runs hv hw

/-- A level leaves what is derived from the next one to that level. -/
theorem Parsed.tighter (h : level.next? = some next) (written : Written next start text o)
    (parsed : Parsed next start text o) : Parsed level start text o := by
  have derives := written.derives
  have not_blank := derives.not_blank
  cases level <;> cases h
  case additive =>
    have chained := Level.Chains.sums.chained_of_next derives parsed
    exact ⟨chained.runs .sums not_blank, absurd rfl, chained⟩
  case multiplicative =>
    have chained := Level.Chains.products.chained_of_next derives parsed
    exact ⟨chained.runs .products not_blank,
      fun _ => (parsed.signs (by decide)).of_next rfl (by decide) derives.hides, chained⟩
  case exponential =>
    have hides : Hides Level.exponential.operators text := derives.hides.mono (by decide)
    exact ⟨(result_run_of_hides rfl (by decide) hides not_blank).trans parsed.runs,
      fun _ => (parsed.signs (by decide)).of_next rfl (by decide) hides,
      chained_of_forall fun _ chains => nomatch chains⟩
  case unary => exact parsed.unary derives
  case transpose => exact parsed.transpose derives

/-- What is written in a text is parsed. The induction carries what a chain needs to know of its
operands. -/
theorem Written.parsed (h : Written level start text o) : Parsed level start text o := by
  induction h with
  | sum mem hl hr left right => exact .sum mem hl hr left right
  | product mem hl hr left right => exact .product mem hl hr left right
  | power mem hl hr left right => exact .power mem hl hr left right
  | signed sign blank operand parsed => exact .signed sign blank operand parsed
  | transposed blank operand parsed => exact .transposed blank operand parsed
  | group before behind operand parsed => exact .group before behind operand parsed
  | applied isName before between behind operand parsed =>
    exact .applied isName before between behind operand parsed
  | symbol isName before behind => exact .symbol isName before behind
  | tighter h written parsed => exact parsed.tighter h written

/-- What is written in a cursor is what its run returns. -/
theorem run_of_written (h : Written level start text o) :
    (run level ⟨text, start⟩).result = .ok o :=
  h.parsed.runs

/-- A run returns the tree of its text, if there is one. -/
theorem map_expr_result_run_iff {t : Expr} :
    (run level ⟨text, start⟩).result.map Outcome.expr = .ok t ↔ Derives level text t := by
  constructor
  · intro h
    cases result : (run level ⟨text, start⟩).result with
    | error f =>
      rw [result] at h
      cases h
    | ok o =>
      rw [result] at h
      obtain rfl := Except.ok.inj h
      exact (written_of_run _ _ _ result).derives
  · intro h
    obtain ⟨o, written, rfl⟩ := h.exists_written start
    rw [run_of_written written]
    rfl

/-- The parser decides the grammar. At every level and offset a run succeeds with the tree of its
text, if the level derives the text, and fails otherwise; no text has two trees. -/
theorem run_decides_grammar (level : Level) (text : List Char) (start : Nat) :
    (∀ t : Expr, (run level ⟨text, start⟩).result.map Outcome.expr = .ok t ↔
      Derives level text t) ∧
    (∀ t u : Expr, Derives level text t → Derives level text u → t = u) ∧
    ((∃ f, (run level ⟨text, start⟩).result = .error f) ↔ ∀ t : Expr, ¬ Derives level text t) := by
  refine ⟨fun t => map_expr_result_run_iff, ?_, ?_⟩
  · intro t u ht hu
    have same : (run level ⟨text, start⟩).result.map Outcome.expr = .ok t :=
      map_expr_result_run_iff.2 ht
    rw [map_expr_result_run_iff.2 hu] at same
    exact (Except.ok.inj same).symm
  · constructor
    · rintro ⟨f, failed⟩ t h
      have ok : (run level ⟨text, start⟩).result.map Outcome.expr = .ok t :=
        map_expr_result_run_iff.2 h
      rw [failed] at ok
      cases ok
    · intro none
      cases result : (run level ⟨text, start⟩).result with
      | error f => exact ⟨f, rfl⟩
      | ok o => exact absurd (written_of_run _ _ _ result).derives (none o.expr)

end Formula
