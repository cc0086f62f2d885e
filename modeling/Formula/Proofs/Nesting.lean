import Formula.Proofs.Blank
import Formula.Split

/-!
# Nesting

The parser counts brackets and never matches them. In a text that the grammar derives the counts
are as good as matching: they are never negative and end where they began (`Derives.nested`), so an
operator that the grammar puts inside brackets is never seen outside them. What a level leaves to
tighter levels hides the operators of the looser ones (`Derives.hides`).
-/

namespace Formula

variable {c : Char} {text l r : List Char} {d : Depth}

/-! ### Depths -/

namespace Depth

/-- The depth behind a text. -/
def through (d : Depth) (text : List Char) : Depth := text.foldl after d

@[simp] theorem through_nil : d.through [] = d := rfl

@[simp] theorem through_cons : d.through (c :: text) = (d.after c).through text := rfl

theorem through_append : d.through (l ++ r) = (d.through l).through r := List.foldl_append

theorem after_of_isBracket_eq_false (h : isBracket c = false) : d.after c = d := by
  unfold after
  split <;> first | rfl | exact absurd h (by decide)

theorem through_of_forall (h : ∀ c ∈ text, isBracket c = false) : d.through text = d := by
  induction text with
  | nil => rfl
  | cons c rest ih =>
    rw [through_cons, after_of_isBracket_eq_false (h c List.mem_cons_self)]
    exact ih fun x mem => h x (List.mem_cons_of_mem c mem)

theorem after_add (c : Char) :
    d.after c = ⟨d.round + (zero.after c).round, d.square + (zero.after c).square⟩ := by
  unfold after
  split <;> simp [zero] <;> rfl

/-- Brackets change the counts by the same amount at every depth. -/
theorem through_add (text : List Char) : ∀ d : Depth,
    d.through text =
      ⟨d.round + (zero.through text).round, d.square + (zero.through text).square⟩ := by
  induction text with
  | nil => intro d; simp [zero]
  | cons c rest ih =>
    intro d
    rw [through_cons, through_cons, ih, ih (zero.after c), after_add c]
    simp only [Depth.mk.injEq]
    omega

/-- The depth counts the brackets of each kind. -/
theorem through_eq_count (text : List Char) :
    zero.through text = ⟨(text.count '(' : Int) - text.count ')',
      (text.count '[' : Int) - text.count ']'⟩ := by
  induction text with
  | nil => rfl
  | cons c rest ih =>
    rw [through_cons, through_add, ih]
    unfold after
    split <;> simp_all [zero] <;> omega

end Depth

/-- No bracket has been closed more often than opened. -/
def Depth.Nonneg (d : Depth) : Prop := 0 ≤ d.round ∧ 0 ≤ d.square

theorem Depth.nonneg_zero : zero.Nonneg := ⟨Int.le_refl 0, Int.le_refl 0⟩

/-! ### Nested texts -/

/-- A pair of brackets and the depth between them. -/
inductive Paired : Char → Char → Depth → Prop
  | round : Paired '(' ')' ⟨1, 0⟩
  | square : Paired '[' ']' ⟨0, 1⟩

/-- A text whose brackets match. -/
inductive Nested : List Char → Prop
  | plain {text : List Char} : (∀ c ∈ text, isBracket c = false) → Nested text
  | append {l r : List Char} : Nested l → Nested r → Nested (l ++ r)
  | enclosed {opening closing : Char} {inside : Depth} {text : List Char} :
      Paired opening closing inside → Nested text → Nested (opening :: (text ++ [closing]))

theorem Nested.cons (hc : isBracket c = false) (h : Nested text) : Nested (c :: text) :=
  append (show Nested [c] from plain (by simpa using hc)) h

theorem Nested.through (h : Nested text) : ∀ d : Depth, d.through text = d := by
  induction h with
  | plain still => exact fun d => Depth.through_of_forall still
  | append _ _ ihl ihr => intro d; rw [Depth.through_append, ihl, ihr]
  | enclosed pair _ ih =>
    intro d
    rw [Depth.through_cons, Depth.through_append, ih]
    cases pair <;> simp [Depth.after]

theorem Paired.isBracket_opening {opening closing : Char} {inside : Depth}
    (h : Paired opening closing inside) : isBracket opening = true := by
  cases h <;> decide

theorem Paired.isBracket_closing {opening closing : Char} {inside : Depth}
    (h : Paired opening closing inside) : isBracket closing = true := by
  cases h <;> decide

theorem Paired.through_cons {opening closing : Char} {inside : Depth}
    (h : Paired opening closing inside) (p : List Char) :
    Depth.zero.through (opening :: p) = ⟨inside.round + (Depth.zero.through p).round,
      inside.square + (Depth.zero.through p).square⟩ := by
  cases h <;> rw [Depth.through_cons, Depth.through_add] <;> rfl

/-- Between a pair of brackets the depth is not zero. -/
theorem Paired.through_cons_ne_zero {opening closing : Char} {inside : Depth} {p : List Char}
    (h : Paired opening closing inside) (nonneg : (Depth.zero.through p).Nonneg) :
    Depth.zero.through (opening :: p) ≠ .zero := by
  obtain ⟨hr, hs⟩ := nonneg
  rw [h.through_cons]
  intro eq
  obtain ⟨round, square⟩ := Depth.mk.inj (eq.trans (rfl : Depth.zero = ⟨0, 0⟩))
  cases h <;> simp only at round square <;> omega

/-- The depth is nowhere negative in a nested text. -/
theorem Nested.nonneg (h : Nested text) :
    ∀ {p q : List Char}, text = p ++ q → (Depth.zero.through p).Nonneg := by
  induction h with
  | plain still =>
    rintro p q rfl
    rw [Depth.through_of_forall fun c mem => still c (List.mem_append_left q mem)]
    exact Depth.nonneg_zero
  | @append l r hl hr ihl ihr =>
    intro p q eq
    rcases List.append_eq_append_iff.1 eq with ⟨m, rfl, -⟩ | ⟨m, hp, -⟩
    · rw [Depth.through_append, hl.through]
      exact ihr (by simpa using eq)
    · exact ihl hp
  | @enclosed opening closing inside text pair ht ih =>
    intro p q eq
    cases p with
    | nil => exact Depth.nonneg_zero
    | cons c p =>
      obtain ⟨rfl, rest⟩ := List.cons.inj eq
      -- a prefix either takes in the closing bracket or ends inside the pair
      rcases List.append_eq_append_iff.1 rest with ⟨m, rfl, hm⟩ | ⟨m, hp, -⟩
      · cases m with
        | nil =>
          rw [List.append_nil, pair.through_cons, ht.through]
          cases pair <;> constructor <;> decide
        | cons y m =>
          obtain ⟨rfl, end_eq⟩ := List.cons.inj hm
          obtain rfl : m = [] := (List.append_eq_nil_iff.1 end_eq.symm).1
          rw [(ht.enclosed pair).through]
          exact Depth.nonneg_zero
      · have := ih hp
        rw [pair.through_cons]
        cases pair <;> simp only [Depth.Nonneg] at this ⊢ <;> omega

/-! ### Hidden operators -/

/-- Each of the operators that occurs in the text stands inside brackets there. -/
def Hides (operators : List BinaryOperator) (text : List Char) : Prop :=
  ∀ p op q, text = p ++ op.symbol :: q → op ∈ operators → Depth.zero.through p ≠ .zero

variable {operators : List BinaryOperator}

theorem BinaryOperator.isBracket_symbol (op : BinaryOperator) : isBracket op.symbol = false := by
  cases op <;> decide

theorem BinaryOperator.isBlank_symbol (op : BinaryOperator) : isBlank op.symbol = false := by
  cases op <;> decide

theorem hides_of_forall (h : ∀ op ∈ operators, op.symbol ∉ text) : Hides operators text := by
  rintro p op q rfl mem
  exact absurd (by simp) (h op mem)

theorem Hides.append (nested : Nested l) (hl : Hides operators l) (hr : Hides operators r) :
    Hides operators (l ++ r) := by
  intro p op q eq mem
  rcases append_cons_eq_append eq.symm with ⟨m, hl', -⟩ | ⟨m, rfl, hr'⟩
  · exact hl p op m hl' mem
  · -- behind a nested text the depth is what it was in front of it
    rw [Depth.through_append, nested.through]
    exact hr m op q hr' mem

theorem Hides.cons (hb : isBracket c = false) (hc : ∀ op ∈ operators, op.symbol ≠ c)
    (h : Hides operators text) : Hides operators (c :: text) := by
  refine append (l := [c]) (.plain (by simpa using hb)) (hides_of_forall ?_) h
  intro op mem
  simpa using hc op mem

theorem Hides.of_append (h : Hides operators (l ++ r)) : Hides operators l := by
  rintro p op q rfl mem
  exact h p op (q ++ r) (by simp) mem

theorem Hides.mono {more : List BinaryOperator} (h : Hides more text) (sub : operators ⊆ more) :
    Hides operators text :=
  fun p op q eq mem => h p op q eq (sub mem)

/-- A pair of brackets hides all operators between them. -/
theorem Nested.hides_enclosed {opening closing : Char} {inside : Depth} (h : Nested text)
    (pair : Paired opening closing inside) : Hides operators (opening :: (text ++ [closing])) := by
  intro p op q eq mem
  have no_bracket := op.isBracket_symbol
  cases p with
  | nil =>
    obtain ⟨rfl, -⟩ := List.cons.inj eq
    simp [pair.isBracket_opening] at no_bracket
  | cons c p =>
    obtain ⟨rfl, rest⟩ := List.cons.inj eq
    -- an operator behind the inner text would be the closing bracket
    rcases append_cons_eq_append rest.symm with ⟨m, hp, -⟩ | ⟨m, rfl, hm⟩
    · exact pair.through_cons_ne_zero (h.nonneg hp)
    · obtain ⟨rfl, rfl, -⟩ : m = [] ∧ closing = op.symbol ∧ q = [] := by
        cases m <;> simp_all
      simp [pair.isBracket_closing] at no_bracket

/-! ### Derived texts -/

theorem Blank.isBracket_eq_false {w : List Char} (h : Blank w) : ∀ c ∈ w, isBracket c = false := by
  intro c mem
  rcases isBlank_iff.1 (h c mem) with rfl | rfl | rfl | rfl <;> decide

theorem Blank.through_append {v : List Char} (h : Blank v) :
    d.through (v ++ text) = d.through text := by
  rw [Depth.through_append, Depth.through_of_forall h.isBracket_eq_false]

/-- Between blanks a text hides what it hides with them. -/
theorem Hides.of_blank_append {v w : List Char} (h : Hides operators (v ++ text ++ w))
    (hv : Blank v) : Hides operators text := by
  rintro p op q rfl mem outside
  exact h (v ++ p) op (q ++ w) (by simp) mem (by rw [hv.through_append, outside])

theorem Blank.symbol_notMem {w : List Char} (h : Blank w) (op : BinaryOperator) :
    op.symbol ∉ w := by
  intro mem
  simpa [op.isBlank_symbol] using h _ mem

theorem IsName.symbol_notMem (h : IsName text) (op : BinaryOperator) : op.symbol ∉ text := by
  intro mem
  have := h.2 _ mem
  cases op <;> exact absurd this (by decide)

theorem IsName.isBracket_eq_false (h : IsName text) : ∀ c ∈ text, isBracket c = false :=
  fun c mem => isBracket_eq_false_of_isNameChar (h.2 c mem)

theorem Derives.nested {level : Level} {t : Expr} (h : Derives level text t) : Nested text := by
  induction h with
  | @sum l r t u op mem _ _ ihl ihr => exact ihl.append (ihr.cons op.isBracket_symbol)
  | @product l r t u op mem _ _ ihl ihr => exact ihl.append (ihr.cons op.isBracket_symbol)
  | @power l r t u op mem _ _ ihl ihr => exact ihl.append (ihr.cons op.isBracket_symbol)
  | signed sign blank _ ih =>
    have sign_plain : isBracket sign.symbol = false := by cases sign <;> decide
    exact (Nested.plain blank.isBracket_eq_false).append (ih.cons sign_plain)
  | transposed blank _ ih =>
    exact ih.append ((Nested.plain blank.isBracket_eq_false).cons (by decide))
  | @group v text w t before behind _ ih =>
    have around := (ih.enclosed .round).append (.plain behind.isBracket_eq_false)
    simpa using (Nested.plain before.isBracket_eq_false).append around
  | @applied u name v text w t isName before between behind _ ih =>
    have around := (ih.enclosed .square).append (.plain behind.isBracket_eq_false)
    have head := ((Nested.plain before.isBracket_eq_false).append
      (.plain isName.isBracket_eq_false)).append (.plain between.isBracket_eq_false)
    simpa using head.append around
  | symbol isName before behind =>
    have front := (Nested.plain before.isBracket_eq_false).append
      (.plain isName.isBracket_eq_false)
    exact front.append (.plain behind.isBracket_eq_false)
  | tighter _ _ ih => exact ih

/-- The operators that a text derived from the level has inside brackets only. -/
def Level.hidden : Level → List BinaryOperator
  | additive => []
  | multiplicative => []
  | exponential => BinaryOperator.multiplicative
  | unary => BinaryOperator.multiplicative ++ BinaryOperator.powers
  | transpose => BinaryOperator.additive ++ BinaryOperator.multiplicative ++ BinaryOperator.powers
  | primary => BinaryOperator.additive ++ BinaryOperator.multiplicative ++ BinaryOperator.powers

theorem Level.hidden_subset {level next : Level} (h : level.next? = some next) :
    level.hidden ⊆ next.hidden := by
  cases level <;> cases h <;> decide

theorem Derives.hides {level : Level} {t : Expr} (h : Derives level text t) :
    Hides level.hidden text := by
  induction h with
  | sum => exact hides_of_forall fun op mem => absurd mem List.not_mem_nil
  | product => exact hides_of_forall fun op mem => absurd mem List.not_mem_nil
  | @power l r t u op mem hl _ ihl ihr =>
    -- a power hides the operators of products but shows its own
    refine (ihl.mono (by decide)).append hl.nested
      ((ihr.mono (by decide)).cons op.isBracket_symbol ?_)
    obtain rfl := List.mem_singleton.1 mem
    decide
  | @signed v text t sign blank _ ih =>
    have sign_plain : isBracket sign.symbol = false := by cases sign <;> decide
    refine (hides_of_forall fun op _ => blank.symbol_notMem op).append
      (.plain blank.isBracket_eq_false) ((ih.mono (by decide)).cons sign_plain ?_)
    cases sign <;> decide
  | @transposed text w t blank hp ih =>
    exact ih.append hp.nested ((hides_of_forall fun op _ => blank.symbol_notMem op).cons
      (by decide) (by decide))
  | @group v text w t before behind ht ih =>
    have around : Hides Level.primary.hidden _ :=
      (ht.nested.hides_enclosed .round).append (ht.nested.enclosed .round)
        (hides_of_forall fun op _ => behind.symbol_notMem op)
    simpa using Hides.append (.plain before.isBracket_eq_false)
      (hides_of_forall fun op _ => before.symbol_notMem op) around
  | @applied u name v text w t isName before between behind ht ih =>
    have around : Hides Level.primary.hidden _ :=
      (ht.nested.hides_enclosed .square).append (ht.nested.enclosed .square)
        (hides_of_forall fun op _ => behind.symbol_notMem op)
    have head : ∀ op ∈ Level.primary.hidden, op.symbol ∉ u ++ name ++ v := by
      intro op _
      simp [before.symbol_notMem op, isName.symbol_notMem op, between.symbol_notMem op]
    have plain : ∀ c ∈ u ++ name ++ v, isBracket c = false := by
      simp only [List.mem_append, or_imp, forall_and]
      exact ⟨⟨before.isBracket_eq_false, isName.isBracket_eq_false⟩, between.isBracket_eq_false⟩
    simpa using (hides_of_forall head).append (.plain plain) around
  | @symbol v name w isName before behind =>
    refine hides_of_forall fun op _ => ?_
    simp [before.symbol_notMem op, isName.symbol_notMem op, behind.symbol_notMem op]
  | tighter h _ ih => exact ih.mono (Level.hidden_subset h)

end Formula
