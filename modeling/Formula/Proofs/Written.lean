import Formula.Parser
import Formula.Proofs.Blank

/-!
# Derivations with offsets

`Written level start text o` says what `Derives` says, and also where each name of the outcome
stands when the first character of the text has the offset `start`. Every derivation can be read at
every offset (`Derives.exists_written`), and leaving the offsets out gives a derivation again
(`Written.derives`).
-/

namespace Formula

/-- The outcome is what the level derives from the text, with each name at its offset. -/
inductive Written : Level → Nat → List Char → Outcome → Prop
  | sum {start : Nat} {l r : List Char} {o p : Outcome} {op : BinaryOperator}
      (mem : op ∈ BinaryOperator.additive) :
      Written .additive start l o → Written .multiplicative (start + l.length + 1) r p →
      Written .additive start (l ++ op.symbol :: r) (.binary o op p)
  | product {start : Nat} {l r : List Char} {o p : Outcome} {op : BinaryOperator}
      (mem : op ∈ BinaryOperator.multiplicative) :
      Written .multiplicative start l o → Written .exponential (start + l.length + 1) r p →
      Written .multiplicative start (l ++ op.symbol :: r) (.binary o op p)
  | power {start : Nat} {l r : List Char} {o p : Outcome} {op : BinaryOperator}
      (mem : op ∈ BinaryOperator.powers) :
      Written .transpose start l o → Written .unary (start + l.length + 1) r p →
      Written .exponential start (l ++ op.symbol :: r) (.binary o op p)
  | signed {start : Nat} {v text : List Char} {o : Outcome} (sign : Sign) (blank : Blank v) :
      Written .transpose (start + v.length + 1) text o →
      Written .unary start (v ++ sign.symbol :: text) (.signed sign o)
  | transposed {start : Nat} {text w : List Char} {o : Outcome} (blank : Blank w) :
      Written .primary start text o →
      Written .transpose start (text ++ transposeMark :: w) (.transposed o)
  | group {start : Nat} {v text w : List Char} {o : Outcome} (before : Blank v)
      (behind : Blank w) :
      Written .additive (start + v.length + 1) text o →
      Written .primary start (v ++ '(' :: (text ++ ')' :: w)) o
  | applied {start : Nat} {u name v text w : List Char} {o : Outcome} (isName : IsName name)
      (before : Blank u) (between : Blank v) (behind : Blank w) :
      Written .additive (start + (u ++ name ++ v).length + 1) text o →
      Written .primary start (u ++ name ++ v ++ '[' :: (text ++ ']' :: w))
        (.applied (String.ofList name) o)
  | symbol {start : Nat} {v name w : List Char} (isName : IsName name) (before : Blank v)
      (behind : Blank w) :
      Written .primary start (v ++ name ++ w) (.leaf ⟨String.ofList name, start + v.length⟩)
  | tighter {level next : Level} {start : Nat} {text : List Char} {o : Outcome}
      (h : level.next? = some next) : Written next start text o → Written level start text o

variable {level : Level} {start : Nat} {text v w : List Char} {o : Outcome} {t : Expr}

/-- Forgetting the offsets leaves a derivation. -/
theorem Written.derives (h : Written level start text o) : Derives level text o.expr := by
  induction h with
  | sum mem _ _ ihl ihr => exact .sum mem ihl ihr
  | product mem _ _ ihl ihr => exact .product mem ihl ihr
  | power mem _ _ ihl ihr => exact .power mem ihl ihr
  | signed sign blank _ ih => exact .signed sign blank ih
  | transposed blank _ ih => exact .transposed blank ih
  | group before behind _ ih => exact .group before behind ih
  | applied isName before between behind _ ih => exact .applied isName before between behind ih
  | symbol isName before behind => exact .symbol isName before behind
  | tighter h _ ih => exact .tighter h ih

/-- A derivation can be read at any offset. -/
theorem Derives.exists_written (h : Derives level text t) :
    ∀ start, ∃ o, Written level start text o ∧ o.expr = t := by
  induction h with
  | @sum l _ _ _ _ mem _ _ ihl ihr =>
    intro start
    obtain ⟨o, ho, rfl⟩ := ihl start
    obtain ⟨p, hp, rfl⟩ := ihr (start + l.length + 1)
    exact ⟨_, .sum mem ho hp, rfl⟩
  | @product l _ _ _ _ mem _ _ ihl ihr =>
    intro start
    obtain ⟨o, ho, rfl⟩ := ihl start
    obtain ⟨p, hp, rfl⟩ := ihr (start + l.length + 1)
    exact ⟨_, .product mem ho hp, rfl⟩
  | @power l _ _ _ _ mem _ _ ihl ihr =>
    intro start
    obtain ⟨o, ho, rfl⟩ := ihl start
    obtain ⟨p, hp, rfl⟩ := ihr (start + l.length + 1)
    exact ⟨_, .power mem ho hp, rfl⟩
  | @signed v _ _ sign blank _ ih =>
    intro start
    obtain ⟨o, ho, rfl⟩ := ih (start + v.length + 1)
    exact ⟨_, .signed sign blank ho, rfl⟩
  | transposed blank _ ih =>
    intro start
    obtain ⟨o, ho, rfl⟩ := ih start
    exact ⟨_, .transposed blank ho, rfl⟩
  | @group v _ _ _ before behind _ ih =>
    intro start
    obtain ⟨o, ho, rfl⟩ := ih (start + v.length + 1)
    exact ⟨_, .group before behind ho, rfl⟩
  | @applied u name v _ _ _ isName before between behind _ ih =>
    intro start
    obtain ⟨o, ho, rfl⟩ := ih (start + (u ++ name ++ v).length + 1)
    exact ⟨_, .applied isName before between behind ho, rfl⟩
  | symbol isName before behind =>
    intro start
    exact ⟨_, .symbol isName before behind, rfl⟩
  | tighter h _ ih =>
    intro start
    obtain ⟨o, ho, rfl⟩ := ih start
    exact ⟨o, .tighter h ho, rfl⟩

/-- A level that binds more loosely leaves its text to a level no tighter than a given one. -/
theorem Level.exists_next {next : Level} (h : next.rank < level.rank) :
    ∃ middle, level.next? = some middle ∧ next.rank ≤ middle.rank ∧ middle.rank < level.rank := by
  cases level with
  | additive => exact ⟨.multiplicative, rfl, Nat.le_of_lt_succ h, by decide⟩
  | multiplicative => exact ⟨.exponential, rfl, Nat.le_of_lt_succ h, by decide⟩
  | exponential => exact ⟨.unary, rfl, Nat.le_of_lt_succ h, by decide⟩
  | unary => exact ⟨.transpose, rfl, Nat.le_of_lt_succ h, by decide⟩
  | transpose => exact ⟨.primary, rfl, Nat.le_of_lt_succ h, by decide⟩
  | primary => exact absurd h (Nat.not_lt_zero _)

theorem Level.rank_injective {next : Level} (h : next.rank = level.rank) : next = level := by
  revert h
  cases next <;> cases level <;> decide

/-- What is written at a level is written at every looser one. -/
theorem Written.loosen {level next : Level} (h : Written next start text o)
    (le : next.rank ≤ level.rank) : Written level start text o := by
  by_cases same : next.rank = level.rank
  · exact Level.rank_injective same ▸ h
  · obtain ⟨middle, next_level, le_middle, lt⟩ := Level.exists_next (Nat.lt_of_le_of_ne le same)
    exact .tighter next_level (h.loosen le_middle)
termination_by level.rank

/-- Blanks may be put around a text. -/
theorem Written.pad {s : Nat} (h : Written level s text o) (hv : Blank v) (hw : Blank w) :
    ∀ start, s = start + v.length → Written level start (v ++ text ++ w) o := by
  -- the blanks in front go to the leftmost part of the text, those behind to the rightmost one
  induction h generalizing v w with
  | @sum _ l r _ _ op mem _ _ ihl ihr =>
    rintro start rfl
    have left := ihl hv blank_nil start rfl
    have right := ihr blank_nil hw (start + (v ++ l).length + 1) (by simp [Nat.add_assoc])
    simpa using Written.sum mem (by simpa using left) right
  | @product _ l r _ _ op mem _ _ ihl ihr =>
    rintro start rfl
    have left := ihl hv blank_nil start rfl
    have right := ihr blank_nil hw (start + (v ++ l).length + 1) (by simp [Nat.add_assoc])
    simpa using Written.product mem (by simpa using left) right
  | @power _ l r _ _ op mem _ _ ihl ihr =>
    rintro start rfl
    have left := ihl hv blank_nil start rfl
    have right := ihr blank_nil hw (start + (v ++ l).length + 1) (by simp [Nat.add_assoc])
    simpa using Written.power mem (by simpa using left) right
  | @signed _ u text _ sign blank _ ih =>
    rintro start rfl
    have operand := ih blank_nil hw (start + (v ++ u).length + 1)
      (by simp [Nat.add_assoc])
    simpa using Written.signed sign (blank_append.2 ⟨hv, blank⟩) operand
  | @transposed _ text u o blank _ ih =>
    rintro start rfl
    have operand : Written .primary start (v ++ text) o := by simpa using ih hv blank_nil start rfl
    have whole := Written.transposed (blank_append.2 ⟨blank, hw⟩) operand
    simpa using whole
  | @group _ u text u' o before behind ht _ =>
    rintro start rfl
    have inner : Written .additive (start + (v ++ u).length + 1) text o := by
      simpa [Nat.add_assoc] using ht
    simpa using Written.group (blank_append.2 ⟨hv, before⟩) (blank_append.2 ⟨behind, hw⟩) inner
  | @applied _ u name v' text u' o isName before between behind ht _ =>
    rintro start rfl
    have inner : Written .additive (start + (v ++ u ++ name ++ v').length + 1) text o := by
      simpa [Nat.add_assoc] using ht
    simpa using Written.applied isName (blank_append.2 ⟨hv, before⟩) between
      (blank_append.2 ⟨behind, hw⟩) inner
  | @symbol _ u name u' isName before behind =>
    rintro start rfl
    have whole : Written .primary start (v ++ u ++ name ++ (u' ++ w)) _ :=
      .symbol isName (blank_append.2 ⟨hv, before⟩) (blank_append.2 ⟨behind, hw⟩)
    simpa [Nat.add_assoc] using whole
  | tighter h _ ih =>
    intro start eq
    exact .tighter h (ih hv hw start eq)

theorem Derives.pad (h : Derives level text t) (hv : Blank v) (hw : Blank w) :
    Derives level (v ++ text ++ w) t := by
  obtain ⟨o, ho, rfl⟩ := h.exists_written (0 + v.length)
  exact (ho.pad hv hw 0 rfl).derives

/-! ### Where the names stand -/

/-- The names lie between two offsets. -/
def Within (start stop : Nat) (names : List Occurrence) : Prop :=
  ∀ x ∈ names, start ≤ x.position ∧ x.position + x.name.length ≤ stop

theorem Within.mono {start' stop stop' : Nat} {names : List Occurrence}
    (h : Within start stop names) (le_start : start' ≤ start) (le_stop : stop ≤ stop') :
    Within start' stop' names := by
  intro x mem
  obtain ⟨lower, upper⟩ := h x mem
  exact ⟨Nat.le_trans le_start lower, Nat.le_trans upper le_stop⟩

theorem Within.append {stop middle : Nat} {left right : List Occurrence}
    (hl : Within start middle left) (hr : Within (middle + 1) stop right)
    (le_start : start ≤ middle) (le_stop : middle ≤ stop) : Within start stop (left ++ right) := by
  intro x mem
  rcases List.mem_append.1 mem with inside | inside
  · exact hl.mono (Nat.le_refl start) le_stop x inside
  · exact hr.mono (Nat.le_succ_of_le le_start) (Nat.le_refl stop) x inside

/-- The names of an outcome lie in its text. -/
theorem Written.within (h : Written level start text o) :
    Within start (start + text.length) o.leaves := by
  have binary {start : Nat} {l r : List Char} {left right : List Occurrence} (c : Char)
      (hl : Within start (start + l.length) left)
      (hr : Within (start + l.length + 1) (start + l.length + 1 + r.length) right) :
      Within start (start + (l ++ c :: r).length) (left ++ right) :=
    hl.append (hr.mono (Nat.le_refl _) (by simp; omega)) (by omega) (by simp)
  induction h with
  | @sum _ _ _ _ _ op _ _ _ ihl ihr => exact binary op.symbol ihl ihr
  | @product _ _ _ _ _ op _ _ _ ihl ihr => exact binary op.symbol ihl ihr
  | @power _ _ _ _ _ op _ _ _ ihl ihr => exact binary op.symbol ihl ihr
  | signed _ _ _ ih => exact ih.mono (by omega) (by simp; omega)
  | transposed _ _ ih => exact ih.mono (Nat.le_refl _) (by simp)
  | group _ _ _ ih => exact ih.mono (by omega) (by simp; omega)
  | applied _ _ _ _ _ ih => exact ih.mono (by omega) (by simp; omega)
  | symbol =>
    intro x mem
    obtain rfl := List.mem_singleton.1 mem
    simp
    omega
  | tighter _ _ ih => exact ih

/-- The names of an outcome stand apart, in the order of the leaves. -/
theorem Written.pairwise (h : Written level start text o) :
    o.leaves.Pairwise fun x y => x.position + x.name.length ≤ y.position := by
  have binary {start stop stop' : Nat} {left right : List Occurrence}
      (hl : left.Pairwise fun x y => x.position + x.name.length ≤ y.position)
      (hr : right.Pairwise fun x y => x.position + x.name.length ≤ y.position)
      (before : Within start stop left) (behind : Within (stop + 1) stop' right) :
      (left ++ right).Pairwise fun x y => x.position + x.name.length ≤ y.position := by
    -- between the names of the operands there is the operator
    refine List.pairwise_append.2 ⟨hl, hr, fun x hx y hy => ?_⟩
    have upper := (before x hx).2
    have lower := (behind y hy).1
    omega
  induction h with
  | sum _ hl hr ihl ihr => exact binary ihl ihr hl.within hr.within
  | product _ hl hr ihl ihr => exact binary ihl ihr hl.within hr.within
  | power _ hl hr ihl ihr => exact binary ihl ihr hl.within hr.within
  | signed _ _ _ ih => exact ih
  | transposed _ _ ih => exact ih
  | group _ _ _ ih => exact ih
  | applied _ _ _ _ _ ih => exact ih
  | symbol => exact List.pairwise_singleton _ _
  | tighter _ _ ih => exact ih

/-! ### The ends of a derived text -/

theorem Level.rank_le_of_next? {next : Level} (h : level.next? = some next) :
    next.rank ≤ level.rank := by
  cases level <;> cases h <;> decide

/-- A derived text is not blank. -/
theorem Derives.not_blank (h : Derives level text t) : ¬ Blank text := by
  induction h with
  | @sum _ _ _ _ op => exact not_blank_append_cons (by cases op <;> decide)
  | @product _ _ _ _ op => exact not_blank_append_cons (by cases op <;> decide)
  | @power _ _ _ _ op => exact not_blank_append_cons (by cases op <;> decide)
  | signed sign => exact not_blank_append_cons (by cases sign <;> decide)
  | transposed => exact not_blank_append_cons (by decide)
  | group => exact not_blank_append_cons (by decide)
  | applied => exact not_blank_append_cons (by decide)
  | symbol isName => exact not_blank_append isName.not_blank _ _
  | tighter _ _ ih => exact ih

/-- What is a primary, or one with the mark of a conjugate transpose, begins with an opening
parenthesis or a name. -/
theorem Derives.head (h : Derives level text t) (rank : level.rank ≤ 1) {c : Char} {r : List Char}
    (hv : Blank v) (hc : isBlank c = false) (eq : v ++ c :: r = text) :
    c = '(' ∨ isNameChar c = true := by
  have of_name {u name rest r : List Char} (isName : IsName name) (hu : Blank u)
      (eq : v ++ c :: r = u ++ (name ++ rest)) : isNameChar c = true := by
    obtain ⟨y, ys, rfl⟩ := List.exists_cons_of_ne_nil isName.1
    have hy := isName.2 y List.mem_cons_self
    rwa [eq_of_blank_append_cons_eq hv hu hc (isBlank_eq_false_of_isNameChar hy) eq]
  -- the first character that is not blank is that of the leftmost primary
  induction h generalizing r with
  | sum => exact absurd rank (by decide)
  | product => exact absurd rank (by decide)
  | power => exact absurd rank (by decide)
  | signed => exact absurd rank (by decide)
  | transposed _ ht ih =>
    rcases append_cons_eq_append eq with ⟨m, h, -⟩ | ⟨m, rfl, -⟩
    · exact ih (by decide) h.symm
    · exact absurd (blank_append.1 hv).1 ht.not_blank
  | group before => exact .inl (eq_of_blank_append_cons_eq hv before hc (by decide) eq)
  | applied isName before => exact .inr (of_name isName before (by simpa using eq))
  | symbol isName before => exact .inr (of_name isName before (by simpa using eq))
  | tighter h _ ih => exact ih (Nat.le_trans (Level.rank_le_of_next? h) rank) eq

/-- A primary ends with a closing bracket or a name. -/
theorem Derives.last (h : Derives .primary text t) {c : Char} {l : List Char} (hw : Blank w)
    (hc : isBlank c = false) (eq : l ++ c :: w = text) :
    c = ')' ∨ c = ']' ∨ isNameChar c = true := by
  cases h with
  | @group v text w' _ before behind =>
    have split : l ++ c :: w = v ++ '(' :: text ++ ')' :: w' := by simpa using eq
    exact .inl (eq_of_append_cons_blank_eq hw behind hc (by decide) split)
  | @applied u name v text w' _ isName before between behind =>
    have split : l ++ c :: w = u ++ name ++ v ++ '[' :: text ++ ']' :: w' := by simpa using eq
    exact .inr (.inl (eq_of_append_cons_blank_eq hw behind hc (by decide) split))
  | @symbol v name w' isName before behind =>
    obtain ⟨ys, y, rfl⟩ := List.eq_nil_or_concat' name |>.resolve_left isName.1
    have hy := isName.2 y (by simp)
    have split : l ++ c :: w = v ++ ys ++ y :: w' := by simpa using eq
    rw [eq_of_append_cons_blank_eq hw behind hc (isBlank_eq_false_of_isNameChar hy) split]
    exact .inr (.inr hy)
  | tighter h => cases h

end Formula
