import Formula.Journal
import Formula.Proofs.RoundTrip
import Mathlib.Algebra.Ring.Nat

/-!
# Operands that are parsed again

When an operand runs out in front of a sign, the chain gives it up and parses it again with the sign
in it. The operand that is given up has been parsed in full up to its end, so what stands at its
front is parsed twice. The entries into levels show this: in front of a signed factor the entries of
a primary count twice (`entries_run_signed_product`), and in groups inside groups they double with
each group (`parse_nestedText`).
-/

namespace Formula

open BinaryOperator (symbol among? additive multiplicative)

variable {level next : Level} {c pending : Cursor} {folded : Folded} {op : BinaryOperator}
  {l r text u v w x : List Char} {rest : List Piece} {o : Outcome} {t : Expr} {start : Nat}
  {operators : List BinaryOperator}

/-! ### Entries -/

namespace Run

variable {α β : Type} {r : Run α}

/-- How many levels a run enters. -/
def entries (r : Run α) : Nat := r.visits.length

@[simp] theorem entries_map (g : α → β) : (r.map g).entries = r.entries := rfl

@[simp] theorem entries_follow (next : Except Failure α → Run β) :
    (r.follow next).entries = r.entries + (next r.result).entries := List.length_append

end Run

@[simp] theorem Folded.entries_asOperand (folded : Folded) (op : BinaryOperator) (c : Cursor)
    (r : Run Outcome) : (folded.asOperand op c r).entries = r.entries := by
  cases folded <;> rfl

@[simp] theorem Folded.entries_asLast (folded : Folded) (c : Cursor) (r : Run Outcome) :
    (folded.asLast c r).entries = r.entries := by
  cases folded <;> rfl

theorem entries_chain_nil :
    (chain next folded pending []).entries = (run next pending).entries := by
  rw [chain_nil, Run.entries_map, Folded.entries_asLast]

theorem entries_chain_of_ok (ok : (run next pending).result = .ok o) :
    (chain next folded pending ((op, text) :: rest)).entries = (run next pending).entries +
      (chain next (some (folded.join o, op)) (pending.beyond text) rest).entries := by
  have operand : (folded.asOperand op pending (run next pending)).result = .ok o :=
    Folded.result_asOperand_eq_ok.2 ok
  rw [chain_cons, Run.entries_follow, operand, Folded.entries_asOperand]

/-- An operand that runs out is parsed again. -/
theorem entries_chain_of_dangles (sign : op.canSign = true) (dangles : Dangles next pending) :
    (chain next folded pending ((op, text) :: rest)).entries = (run next pending).entries +
      (chain next folded (pending.widen op text) rest).entries := by
  obtain ⟨f, failed, dangling⟩ := dangles.result_asOperand folded op
  rw [chain_cons, Run.entries_follow, failed, Folded.entries_asOperand]
  simp only [sign, dangling, Bool.and_self, if_true]

/-! ### Entries of a level -/

theorem entries_run_of_blank (h : Blank c.text) : (run level c).entries = 1 := by
  rw [run_of_empty (Cursor.length_trim_eq_zero_iff.2 h)]
  rfl

theorem entries_run_of_symbol (h : IsName u) : (run .primary ⟨u, start⟩).entries = 1 := by
  rw [run_of_symbol (length_trim_ne_zero h.not_blank)
    (by rw [Cursor.trim_eq_self h.core]; exact step_symbol h)]
  rfl

theorem entries_run_of_descend (hu : Core u) (hs : level.step ⟨u, start⟩ = .descend next) :
    (run level ⟨u, start⟩).entries = (run next ⟨u, start⟩).entries + 1 := by
  rw [run_of_descend (length_trim_ne_zero hu.not_blank) (by rwa [Cursor.trim_eq_self hu]),
    Cursor.trim_eq_self hu]
  rfl

theorem entries_run_of_enclose (hu : Core u) {enclosure : Enclosure} {operand : Cursor}
    (hs : level.step ⟨u, start⟩ = .enclose enclosure operand) :
    (run level ⟨u, start⟩).entries = (run enclosure.operandLevel operand).entries + 1 := by
  rw [run_of_enclose (length_trim_ne_zero hu.not_blank) (by rwa [Cursor.trim_eq_self hu])]
  rfl

theorem Level.Chains.entries_run (chains : level.Chains next) (hu : Core u) :
    (run level ⟨u, start⟩).entries = (level.chainOf next start u).entries + 1 := by
  rw [run_of_chain (length_trim_ne_zero hu.not_blank)
    (by rw [Cursor.trim_eq_self hu]; exact step_of_chains chains)]
  rfl

/-- A text without the operators of a level costs one entry more than at the next level. -/
theorem Level.Chains.entries_run_of_hides (chains : level.Chains next) (hu : Core u)
    (hides : Hides level.operators u) :
    (run level ⟨u, start⟩).entries = (run next ⟨u, start⟩).entries + 1 := by
  rw [chains.entries_run hu, Level.chainOf, pieces_of_hides hides, entries_chain_nil]

/-- A primary costs one entry for each level above. -/
theorem entries_run_of_primary (hu : Core u) (derives : Derives .primary u t) :
    (run level ⟨u, start⟩).entries = (run .primary ⟨u, start⟩).entries + level.rank := by
  have hides := derives.hides
  have around : u = [] ++ u ++ [] := by simp
  have at_transpose :
      (run .transpose ⟨u, start⟩).entries = (run .primary ⟨u, start⟩).entries + 1 :=
    entries_run_of_descend hu
      (step_transpose_iff.2 (Derives.no_mark (around ▸ derives) blank_nil))
  have at_unary :
      (run .unary ⟨u, start⟩).entries = (run .transpose ⟨u, start⟩).entries + 1 :=
    entries_run_of_descend hu
      (step_unary_iff.2 (Derives.no_sign (.tighter rfl (around ▸ derives)) blank_nil hu))
  have at_exponential :
      (run .exponential ⟨u, start⟩).entries = (run .unary ⟨u, start⟩).entries + 1 :=
    entries_run_of_descend hu (step_exponential_iff.2 (hides.mono (by decide)))
  have at_multiplicative :
      (run .multiplicative ⟨u, start⟩).entries = (run .exponential ⟨u, start⟩).entries + 1 :=
    Level.Chains.products.entries_run_of_hides hu (hides.mono (by decide))
  have at_additive :
      (run .additive ⟨u, start⟩).entries = (run .multiplicative ⟨u, start⟩).entries + 1 :=
    Level.Chains.sums.entries_run_of_hides hu (hides.mono (by decide))
  cases level <;> simp only [Level.rank] <;> omega

/-! ### A factor in front of a signed one -/

theorem exists_sign_of_mem_additive (mem : op ∈ additive) :
    ∃ sign : Sign, sign.symbol = op.symbol := by
  rw [← BinaryOperator.canSign_iff] at mem
  cases op with
  | add => exact ⟨.plus, rfl⟩
  | subtract => exact ⟨.minus, rfl⟩
  | _ => cases mem

/-- A signed name costs an entry for each level from that of powers on. -/
theorem entries_run_signed (mem : op ∈ additive) (hv : Blank v) (isName : IsName u) :
    (run .exponential ⟨v ++ op.symbol :: u, start⟩).entries = 4 := by
  have no_power : ∀ op' ∈ BinaryOperator.powers, op'.symbol ≠ op.symbol := by
    rintro op' power same
    rw [BinaryOperator.symbol_injective same] at power
    exact notMem_additive (List.mem_append_right _ power) mem
  have core : Core (op.symbol :: u) := (core_singleton op.isBlank_symbol).append isName.core []
  have hides : Hides BinaryOperator.powers (op.symbol :: u) :=
    .cons op.isBracket_symbol no_power (hides_of_forall fun op _ => isName.symbol_notMem op)
  obtain ⟨sign, same⟩ := exists_sign_of_mem_additive mem
  have around : v ++ op.symbol :: u = v ++ (op.symbol :: u) ++ [] := by simp
  rw [around, run_append _ start hv blank_nil core.not_blank,
    entries_run_of_descend core (step_exponential_iff.2 hides),
    entries_run_of_enclose core (same ▸ step_signed sign blank_nil isName.core),
    Enclosure.operandLevel, entries_run_of_primary isName.core isName.derives,
    entries_run_of_symbol isName]
  rfl

theorem core_group (text : List Char) : Core ('(' :: (text ++ [')'])) :=
  (core_singleton (by decide)).append (core_singleton (by decide)) text

/-- A group costs one entry for each level, and what its contents cost. -/
theorem entries_run_group (derives : Derives .additive text t) :
    (run level ⟨'(' :: (text ++ [')']), start⟩).entries =
      (run .additive ⟨text, start + 1⟩).entries + level.rank + 1 := by
  rw [entries_run_of_primary (core_group text) derives.parenthesized,
    entries_run_of_enclose (core_group text) (step_group derives.not_blank)]
  exact Nat.add_right_comm _ _ _

/-- A product of two costs what its factors cost, and one entry. -/
theorem entries_run_product (mem : op ∈ Level.multiplicative.operators)
    (core : Core (l ++ op.symbol :: r)) (left : Written .exponential start l o)
    (hides : Hides Level.multiplicative.operators r) :
    (run .multiplicative ⟨l ++ op.symbol :: r, start⟩).entries =
      (run .exponential ⟨l, start⟩).entries +
        (run .exponential ⟨r, start + l.length + 1⟩).entries + 1 := by
  have front : Hides Level.multiplicative.operators l := left.derives.hides
  rw [Level.Chains.products.entries_run core, Level.chainOf,
    pieces_append_operator mem (left.derives.nested.through .zero), pieces_of_hides front,
    pieces_of_hides hides, List.nil_append, entries_chain_of_ok (run_of_written left),
    entries_chain_nil]
  rfl

/-- Behind blanks and an operator of another level nothing but the rest can be an operator. -/
theorem hides_append_cons (hw : Blank w) (other : op ∉ operators)
    (rest : ∀ op' ∈ operators, op'.symbol ∉ x) : Hides operators (w ++ op.symbol :: x) := by
  refine hides_of_forall fun op' mem occurs => ?_
  rcases List.mem_append.1 occurs with inside | inside
  · exact hw.symbol_notMem op' inside
  · rcases List.mem_cons.1 inside with same | behind
    · rw [BinaryOperator.symbol_injective same] at mem
      exact other mem
    · exact rest op' mem behind

/-- A primary is a factor, with the blanks behind it. -/
theorem Written.factor (h : Written .primary start u o) (hw : Blank w) :
    Written .exponential start (u ++ w) o :=
  (h.pad blank_nil hw start rfl).loosen (by decide)

theorem entries_run_append (hu : Core u) (hw : Blank w) :
    (run level ⟨u ++ w, start⟩).entries = (run level ⟨u, start⟩).entries := by
  have trimmed := run_append level start blank_nil hw hu.not_blank
  rw [List.nil_append] at trimmed
  rw [trimmed]
  rfl

/-- A product without its second factor runs out. -/
theorem dangles_open_product (base : Written .exponential start l o)
    (mem : op ∈ Level.multiplicative.operators) (hv : Blank v) :
    Dangles .multiplicative ⟨l ++ op.symbol :: v, start⟩ := by
  have written : Written .multiplicative start l o := .tighter rfl base
  have no_operator : Hides Level.multiplicative.operators v :=
    hides_of_forall fun op _ => hv.symbol_notMem op
  exact Dangles.chain .products mem (run_of_written written) written.parsed.chained
    no_operator.signsOnly (dangles_of_blank hv)

theorem entries_run_open_product (hu : Core u) (hw : Blank w)
    (base : Written .exponential start (u ++ w) o) (mem : op ∈ Level.multiplicative.operators)
    (hv : Blank v) :
    (run .multiplicative ⟨u ++ w ++ op.symbol :: v, start⟩).entries =
      (run .exponential ⟨u, start⟩).entries + 2 := by
  have core : Core (u ++ w ++ [op.symbol]) := hu.append (core_singleton op.isBlank_symbol) w
  have around : u ++ w ++ op.symbol :: v = u ++ w ++ [op.symbol] ++ v := by simp
  rw [around, entries_run_append core hv,
    entries_run_product mem core base (hides_of_forall nofun), entries_run_append hu hw,
    entries_run_of_blank (c := ⟨[], _⟩) blank_nil]

/-- In front of a signed factor a primary is parsed twice: up to the sign, where the product runs
out, and with what the sign belongs to. -/
theorem entries_run_signed_product {op' : BinaryOperator} (primary : Written .primary start u o)
    (hu : Core u) (hw : Blank w) (mem : op ∈ Level.multiplicative.operators) (hv : Blank v)
    (mem' : op' ∈ Level.additive.operators) (isName : IsName r) :
    (run .additive ⟨u ++ w ++ op.symbol :: (v ++ op'.symbol :: r), start⟩).entries =
      2 * (run .exponential ⟨u, start⟩).entries + 8 := by
  have base := primary.factor hw
  have nested := primary.derives.nested
  have core : Core (u ++ w ++ op.symbol :: (v ++ op'.symbol :: r)) := by
    simpa using hu.append isName.core (w ++ op.symbol :: (v ++ [op'.symbol]))
  have other : op ∉ Level.additive.operators := notMem_additive (List.mem_append_left _ mem)
  have other' : op' ∉ Level.multiplicative.operators := fun mem =>
    notMem_additive (List.mem_append_left _ mem) mem'
  -- the sum is cut at the sign, and the product in front of it runs out
  have front : Hides Level.additive.operators (u ++ (w ++ op.symbol :: v)) :=
    (primary.derives.hides.mono (by decide)).append nested
      (hides_append_cons hw other fun op' _ => hv.symbol_notMem op')
  have outside : Depth.zero.through (u ++ (w ++ op.symbol :: v)) = .zero := by
    rw [Depth.through_append, nested.through, hw.through_append, Depth.through_cons,
      Depth.after_of_isBracket_eq_false op.isBracket_symbol,
      Depth.through_of_forall hv.isBracket_eq_false]
  have around : u ++ w ++ op.symbol :: (v ++ op'.symbol :: r) =
      u ++ (w ++ op.symbol :: v) ++ op'.symbol :: r := by simp
  have cut : pieces (among? Level.additive.operators) .zero
      (u ++ w ++ op.symbol :: (v ++ op'.symbol :: r)) =
      (u ++ w ++ op.symbol :: v, [(op', r)]) := by
    have no_operator : Hides Level.additive.operators r :=
      hides_of_forall fun op _ => isName.symbol_notMem op
    rw [around, pieces_append_operator mem' outside, pieces_of_hides front,
      pieces_of_hides no_operator, List.append_assoc]
    rfl
  rw [Level.Chains.sums.entries_run core, Level.chainOf, cut,
    entries_chain_of_dangles (BinaryOperator.canSign_iff.2 mem')
      (dangles_open_product base mem hv), entries_run_open_product hu hw base mem hv,
    entries_chain_nil, Cursor.widen]
  -- with the sign in it, the product has two factors
  have behind : Hides Level.multiplicative.operators (v ++ op'.symbol :: r) :=
    hides_append_cons hv other' fun op _ => isName.symbol_notMem op
  have same : u ++ w ++ op.symbol :: v ++ op'.symbol :: r =
      u ++ w ++ op.symbol :: (v ++ op'.symbol :: r) := by simp
  rw [same, entries_run_product mem core base behind, entries_run_append hu hw,
    entries_run_signed mem' hv isName]
  omega

/-! ### Groups inside groups -/

/-- A name in groups, each with `* -b` behind it. -/
def nestedText : Nat → List Char
  | 0 => ['a']
  | n + 1 => '(' :: (nestedText n ++ [')', ' ', '*', ' ', '-', 'b'])

example : nestedText 2 = "((a) * -b) * -b".toList := by decide

/-- The tree of such a text. -/
def nestedTree : Nat → Expr
  | 0 => .leaf "a"
  | n + 1 => .binary (nestedTree n) .multiply (.signed .minus (.leaf "b"))

theorem length_nestedText (n : Nat) : (nestedText n).length = 7 * n + 1 := by
  induction n with
  | zero => rfl
  | succ n ih =>
    simp only [nestedText, List.length_cons, List.length_append, List.length_nil, ih]
    omega

theorem derives_nestedText (n : Nat) : Derives .additive (nestedText n) (nestedTree n) := by
  induction n with
  | zero =>
    have isName : IsName ['a'] := by decide
    exact isName.derives.of_primary
  | succ n ih =>
    have blank : Blank [' '] := by decide
    have isName : IsName ['b'] := by decide
    have times : BinaryOperator.multiply ∈ multiplicative := by decide
    have left := ih.parenthesized.pad blank_nil blank
    have right : Derives .exponential [' ', '-', 'b'] (.signed .minus (.leaf "b")) :=
      .tighter rfl (.signed .minus blank isName.derives.of_primary)
    have product := Derives.product times left.of_primary right
    refine .tighter rfl ?_
    simpa [nestedText, nestedTree, symbol] using product

theorem entries_run_nestedText (n start : Nat) :
    (run .additive ⟨nestedText n, start⟩).entries + 16 = 22 * 2 ^ n := by
  induction n generalizing start with
  | zero =>
    have isName : IsName (nestedText 0) := by decide
    rw [entries_run_of_primary isName.core isName.derives, entries_run_of_symbol isName]
    rfl
  | succ n ih =>
    obtain ⟨o, written, -⟩ := (derives_nestedText n).exists_written (start + 1)
    have group : Written .primary start ('(' :: (nestedText n ++ [')'])) o :=
      .group blank_nil blank_nil written
    have blank : Blank [' '] := by decide
    have times : BinaryOperator.multiply ∈ Level.multiplicative.operators := by decide
    have minus : BinaryOperator.subtract ∈ Level.additive.operators := by decide
    have name : IsName ['b'] := by decide
    have doubled := entries_run_signed_product group (core_group _) blank times blank minus name
    have same : '(' :: (nestedText n ++ [')']) ++ [' '] ++ symbol .multiply ::
        ([' '] ++ symbol .subtract :: ['b']) = nestedText (n + 1) := by
      simp [nestedText, symbol]
    have inner := ih (start + 1)
    rw [entries_run_group written.derives, same] at doubled
    rw [doubled, pow_succ, Level.rank]
    omega

/-- In groups inside groups the entries double with each group: a text of `7 * n + 1` characters is
parsed with `22 * 2 ^ n - 16` of them. -/
theorem parse_nestedText (n : Nat) :
    (nestedText n).length = 7 * n + 1 ∧
      (∃ o, (parse (String.ofList (nestedText n))).result = .ok o ∧ o.expr = nestedTree n) ∧
      ((parse (String.ofList (nestedText n))).heard .listener).length = 22 * 2 ^ n - 16 := by
  have whole : parse (String.ofList (nestedText n)) = run .additive ⟨nestedText n, 0⟩ := by
    rw [parse_eq_run, String.toList_ofList]
  refine ⟨length_nestedText n, ?_, ?_⟩
  · obtain ⟨o, written, tree⟩ := (derives_nestedText n).exists_written 0
    exact ⟨o, by rw [whole, run_of_written written], tree⟩
  · have entries := entries_run_nestedText n 0
    rw [Run.heard, if_pos rfl, whole]
    exact Nat.eq_sub_of_add_eq entries

end Formula
