import Formula.Proofs.Occurrences
import Formula.Proofs.Offset
import Formula.Proofs.Unfinished

/-!
# Failures inside groups

A malformed text is put in parentheses and in the place of a symbol of a text that can be parsed.
The whole then fails as the malformed text does alone, at the offset where that is seen
(`Malformed.surfaces`).

What could go wrong are the retries: an operand that is missing inside the group must not be taken
for one that is missing at the end of an operand around it. It is not, because the closing
parenthesis stands between the failure and the end of whatever the group is a part of
(`Malformed.not_isDangling`). Everything around the group is read as it was around the symbol, since
the group hides its operators and leaves the depth as it was.
-/

namespace Formula

open BinaryOperator (symbol among?)

variable {level next : Level} {c : Cursor} {start k : Nat} {d : Depth} {x : Char}
  {l r m v w u text name : List Char} {op : BinaryOperator} {operators : List BinaryOperator}
  {f : Failure}

/-! ### Symbols in parts of a text -/

theorem head?_trimLeft_append (h : (trimLeft l).head? = some x) (r : List Char) :
    (trimLeft (l ++ r)).head? = some x := by
  have ne : (l.dropWhile isBlank).isEmpty = false := by
    cases rest : l.dropWhile isBlank with
    | nil => simp [trimLeft, rest] at h
    | cons => rfl
  rw [trimLeft, List.dropWhile_append, ne]
  simp only [Bool.false_eq_true, if_false]
  rw [List.head?_append, ← trimLeft, h, Option.some_or]

/-- A symbol of a text is a symbol of each part it lies in. -/
theorem SymbolBetween.of_append (h : SymbolBetween (v ++ l) name (r ++ w)) :
    SymbolBetween l name r where
  isName := h.isName
  ends := h.ends.of_append
  starts := h.starts.of_append
  free := fun bracket => h.free (head?_trimLeft_append bracket w)

/-- A symbol of a name is the whole name. -/
theorem SymbolBetween.eq_nil_of_isName (h : SymbolBetween l name r)
    (names : IsName (l ++ name ++ r)) : l = [] ∧ r = [] := by
  constructor
  · by_contra ne
    exact IsName.not_endsToken ⟨ne, fun c mem => names.2 c (by simp [mem])⟩ h.ends
  · cases r with
    | nil => rfl
    | cons c r =>
      have := startsToken_cons.1 h.starts
      simp [names.2 c (by simp)] at this

/-- A character of a text that is not one of names stands in front of a name in the text or behind
it. -/
theorem IsName.cut (isName : IsName name) (hx : isNameChar x = false)
    (eq : l ++ name ++ r = v ++ x :: w) :
    (∃ m, l = v ++ x :: m ∧ w = m ++ name ++ r) ∨ ∃ m, v = l ++ name ++ m ∧ r = m ++ x :: w := by
  rcases append_cons_eq_append eq.symm with ⟨m, front, rfl⟩ | ⟨m, rfl, rfl⟩
  · rcases append_cons_eq_append front.symm with ⟨m', rfl, rfl⟩ | ⟨m', rfl, rfl⟩
    · exact .inl ⟨m', rfl, rfl⟩
    · simp [isName.2 x (by simp)] at hx
  · exact .inr ⟨m, rfl, rfl⟩

/-- A name lies between two texts that have none of its characters. -/
theorem IsName.exists_inside (isName : IsName name) (hv : ∀ c ∈ v, isNameChar c = false)
    (hw : ∀ c ∈ w, isNameChar c = false) (eq : l ++ name ++ r = v ++ u ++ w) :
    ∃ l' r', l = v ++ l' ∧ u = l' ++ name ++ r' ∧ r = r' ++ w := by
  obtain ⟨l', rfl⟩ : ∃ l', l = v ++ l' := by
    rw [List.append_assoc, List.append_assoc] at eq
    rcases List.append_eq_append_iff.1 eq with ⟨m, rfl, front⟩ | ⟨m, rfl, -⟩
    · cases m with
      | nil => exact ⟨[], by simp⟩
      | cons c m =>
        have starts : StartsToken (name ++ r) := by
          rw [front]
          exact startsToken_cons.2 (hv c (by simp))
        exact absurd starts isName.not_startsToken
    · exact ⟨m, rfl⟩
  rw [List.append_assoc v, List.append_assoc v, List.append_assoc v,
    List.append_cancel_left_eq] at eq
  rcases List.append_eq_append_iff.1 eq with ⟨m, rfl, rfl⟩ | ⟨m, behind, rfl⟩
  · exact ⟨l', m, rfl, rfl, rfl⟩
  · rcases List.eq_nil_or_concat' m with rfl | ⟨m, c, rfl⟩
    · exact ⟨l', [], rfl, by simpa using behind.symm, by simp⟩
    · have ends : EndsToken (l' ++ name) := by
        rw [behind, EndsToken, ← List.append_assoc, List.getLast?_concat]
        rintro y ⟨⟩
        exact hw c (by simp)
      exact absurd ends.of_append isName.not_endsToken

/-- A symbol in a construct lies in the operand: it is not the name of the construct. -/
theorem Enclosure.Encloses.exists_inside {enclosure : Enclosure} {before behind : List Char}
    (h : enclosure.Encloses before behind) (between : SymbolBetween l name r)
    (eq : l ++ name ++ r = before ++ text ++ behind) :
    ∃ l' r', l = before ++ l' ∧ text = l' ++ name ++ r' ∧ r = r' ++ behind := by
  cases h with
  | @sign v sign hv =>
    refine between.isName.exists_inside ?_ (by simp) eq
    rintro c (_ | ⟨_, mem⟩)
    · exact sign.isMark_symbol.1
    · exact hv.isNameChar_eq_false c mem
  | @transpose w hw =>
    refine between.isName.exists_inside (by simp) (fun c mem => ?_) eq
    rcases List.mem_append.1 mem with blank | mark
    · exact hw.isNameChar_eq_false c blank
    · obtain rfl := List.mem_singleton.1 mark
      exact isMark_transposeMark.1
  | parentheses =>
    exact between.isName.exists_inside (IsMark.isNameChar_eq_false (by decide))
      (IsMark.isNameChar_eq_false (by decide)) eq
  | @function n v isName hv =>
    have cut : l ++ name ++ r = n ++ v ++ '[' :: (text ++ [']']) := by simpa using eq
    rcases between.isName.cut (by decide) cut with ⟨m, rfl, inner⟩ | ⟨m, front, rfl⟩
    · -- the symbol stands behind the opening bracket
      obtain ⟨l', r', m_eq, text_eq, rfl⟩ := between.isName.exists_inside (v := []) (by simp)
        (IsMark.isNameChar_eq_false (by decide)) inner.symm
      exact ⟨l', r', by simp [m_eq], text_eq, rfl⟩
    · -- nothing but blanks can stand between the symbol and the bracket
      have starts : StartsToken m := between.starts.of_append
      have blank : Blank m := by
        rcases List.append_eq_append_iff.1 front with ⟨v', -, rfl⟩ | ⟨m', rfl, rfl⟩
        · exact (blank_append.1 hv).2
        · cases m' with
          | nil => exact hv
          | cons c m' =>
            have := startsToken_cons.1 starts
            simp [isName.2 c (by simp)] at this
      refine absurd ?_ between.free
      rw [trimLeft_append_of_blank blank]
      rfl

/-! ### Groups in the place of symbols -/

/-- A text in parentheses. -/
def grouped (text : List Char) : List Char := '(' :: (text ++ [')'])

/-- No parenthesis is closed before it is opened, and as many brackets of each kind are closed as
are opened. Square brackets may be in any order. -/
structure Balanced (text : List Char) : Prop where
  opened : ∀ p, p <+: text → p.count ')' ≤ p.count '('
  round : text.count '(' = text.count ')'
  square : text.count '[' = text.count ']'

/-- A text that cannot be parsed, and how it fails alone. -/
structure Malformed (inner : List Char) (e : Failure) : Prop where
  not_blank : ¬ Blank inner
  balanced : Balanced inner
  failed : (run .additive ⟨inner, 0⟩).result = .error e

theorem core_grouped (text : List Char) : Core (grouped text) :=
  (core_singleton (by decide)).append (core_singleton (by decide)) text

/-- A core may stand in the place of any part of a core. -/
theorem Core.replace {g : List Char} (core : Core (l ++ text ++ r)) (hg : Core g) :
    Core (l ++ g ++ r) := by
  refine ⟨by simp [hg.ne_nil], fun c mem => ?_, fun c mem => ?_⟩
  · cases l with
    | nil =>
      rw [List.nil_append, List.head?_append_of_ne_nil _ hg.ne_nil] at mem
      exact hg.head c mem
    | cons y l => exact core.head c mem
  · rcases List.eq_nil_or_concat' r with rfl | ⟨r, y, rfl⟩
    · rw [List.append_nil, List.getLast?_append_of_ne_nil _ hg.ne_nil] at mem
      exact hg.last c mem
    · rw [← List.append_assoc, List.getLast?_concat] at mem
      exact core.last c (by rw [← List.append_assoc, List.getLast?_concat]; exact mem)

/-- Where a cursor with a symbol is trimmed, so is the cursor with a core in its place. -/
theorem SymbolBetween.exists_trim {g : List Char} (between : SymbolBetween l name r)
    (eq : c.text = l ++ name ++ r) (hg : Core g) :
    ∃ l' r', c.trim.text = l' ++ name ++ r' ∧ SymbolBetween l' name r' ∧
      c.start + l.length = c.trim.start + l'.length ∧ Core (l' ++ g ++ r') ∧
      ∀ level, run level ⟨l ++ g ++ r, c.start⟩ = run level ⟨l' ++ g ++ r', c.trim.start⟩ := by
  have not_blank : ¬ Blank c.text := by
    rw [eq]
    exact not_blank_append between.isName.not_blank l r
  obtain ⟨v, u, w, hv, hu, hw, text, trimmed⟩ := Cursor.exists_trim not_blank
  obtain ⟨l', r', rfl, rfl, rfl⟩ := between.isName.exists_inside hv.isNameChar_eq_false
    hw.isNameChar_eq_false (eq.symm.trans text)
  have core : Core (l' ++ g ++ r') := hu.replace hg
  refine ⟨l', r', by rw [trimmed], between.of_append, ?_, core, fun level => ?_⟩
  · rw [trimmed, List.length_append, Nat.add_assoc]
  · have around : v ++ l' ++ g ++ (r' ++ w) = v ++ (l' ++ g ++ r') ++ w := by simp
    rw [around, trimmed, run_append level c.start hv hw core.not_blank]

namespace Malformed

variable {inner : List Char} {e : Failure}

/-- A group leaves the depth as it was. -/
theorem through (h : Malformed inner e) (d : Depth) : d.through (grouped inner) = d := by
  have zero : Depth.zero.through (grouped inner) = ⟨0, 0⟩ := by
    have round := h.balanced.round
    have square := h.balanced.square
    rw [Depth.through_eq_count]
    simp [grouped, round, square]
  rw [Depth.through_add, zero]
  simp

/-- Inside a group the depth is not zero. -/
theorem through_ne_zero (h : Malformed inner e) (nonneg : d.Nonneg) {p q : List Char}
    (eq : grouped inner = p ++ op.symbol :: q) : d.through p ≠ .zero := by
  have no_bracket := op.isBracket_symbol
  cases p with
  | nil =>
    obtain ⟨bracket, -⟩ := List.cons.inj eq
    rw [← bracket] at no_bracket
    exact absurd no_bracket (by decide)
  | cons y p =>
    obtain ⟨rfl, rest⟩ := List.cons.inj eq
    -- the operator is not the closing parenthesis, so what is in front of it is part of the text
    obtain ⟨m, rfl⟩ : ∃ m, inner = p ++ m := by
      rcases append_cons_eq_append rest.symm with ⟨m, rfl, -⟩ | ⟨m, -, last⟩
      · exact ⟨_, rfl⟩
      · cases m with
        | nil =>
          obtain ⟨bracket, -⟩ := List.cons.inj last
          rw [← bracket] at no_bracket
          exact absurd no_bracket (by decide)
        | cons z m => simp at last
    have opened := h.balanced.opened p (List.prefix_append p m)
    have round := nonneg.1
    rw [Depth.through_cons, Depth.through_add, Depth.through_eq_count]
    intro outside
    have := congrArg Depth.round outside
    simp only [Depth.after, Depth.zero] at this
    omega

theorem through_patch (h : Malformed inner e) (isName : IsName name) (d : Depth) :
    d.through (l ++ grouped inner ++ r) = d.through (l ++ name ++ r) := by
  rw [Depth.through_append, Depth.through_append, h.through, Depth.through_append,
    Depth.through_append, Depth.through_of_forall isName.isBracket_eq_false]

/-- Around a group the same operators are seen as around a symbol, and inside it none. -/
theorem hides (h : Malformed inner e) (isName : IsName name)
    (nonneg : (Depth.zero.through l).Nonneg) (hides : Hides operators (l ++ name ++ r)) :
    Hides operators (l ++ grouped inner ++ r) := by
  intro p op q eq mem
  rcases append_cons_eq_append eq.symm with ⟨m, front, -⟩ | ⟨m, rfl, rfl⟩
  · rcases append_cons_eq_append front.symm with ⟨m', rfl, rfl⟩ | ⟨m', rfl, group⟩
    · exact hides p op (m' ++ name ++ r) (by simp) mem
    · rw [Depth.through_append]
      exact h.through_ne_zero nonneg group
  · rw [h.through_patch isName]
    exact hides (l ++ name ++ m) op q (by simp) mem

end Malformed

/-! ### How a failure is seen outside its group -/

/-- The failure of a text as it is seen when the text stands in a group at an offset. -/
structure Surfaces (inner : List Char) (e : Failure) (offset : Nat) (f : Failure) : Prop where
  cause : f.cause = e.cause
  position : f.position = e.position + offset + 1
  trail : ∃ outer, f.trail = outer ++
    ⟨.inside .parentheses, ⟨grouped inner, offset⟩⟩ :: e.trail.map (Frame.shift (offset + 1))

variable {inner : List Char} {e : Failure} {folded : Folded}

theorem Surfaces.within (s : Surfaces inner e start f) (context : Context) (c : Cursor) :
    Surfaces inner e start (f.within context c) := by
  obtain ⟨cause, position, outer, trail⟩ := s
  refine ⟨cause, position, ⟨context, c⟩ :: outer, ?_⟩
  rw [Failure.within, trail, List.cons_append]

namespace Malformed

theorem evident (h : Malformed inner e) :
    Evident .additive ⟨inner, 0⟩ e.cause e.position :=
  evident_of_run _ _ _ h.failed

theorem ofOperand (h : Malformed inner e) (s : Surfaces inner e start f) (side : Side)
    (op : BinaryOperator) (c : Cursor) : Surfaces inner e start (.ofOperand side op c f) := by
  have nonempty : f.cause ≠ .emptyInput := by
    rw [s.cause]
    exact h.evident.ne_emptyInput h.not_blank
  have around : Failure.ofOperand side op c f = f.within (.operand side op) c := by
    unfold Failure.ofOperand
    split
    · next empty => exact absurd empty nonempty
    · rfl
  rw [around]
  exact s.within _ c

theorem asOperand (h : Malformed inner e) (s : Surfaces inner e start f) (folded : Folded)
    (op : BinaryOperator) (failed : (run next c).result = .error f) :
    ∃ g, (folded.asOperand op c (run next c)).result = .error g ∧ Surfaces inner e start g := by
  obtain ⟨side, around, eq⟩ := folded.exists_asOperand_eq op
  rw [eq]
  exact ⟨_, Run.result_asOperand_of_error failed, h.ofOperand s side around c⟩

theorem asLast (h : Malformed inner e) (s : Surfaces inner e start f) (folded : Folded)
    (failed : (run next c).result = .error f) :
    ∃ g, (folded.asLast c (run next c)).result = .error g ∧ Surfaces inner e start g := by
  cases folded with
  | none => exact ⟨f, failed, s⟩
  | some => exact ⟨_, Run.result_asOperand_of_error failed, h.ofOperand s _ _ _⟩

/-- A group is never taken for an operand that runs out: its closing parenthesis comes later. -/
theorem not_isDangling (h : Malformed inner e) (s : Surfaces inner e (start + l.length) f) :
    ¬ f.isDangling ⟨l ++ grouped inner ++ r, start⟩ = true := by
  intro dangling
  have stop := (Failure.isDangling_iff.1 dangling).2
  have inside := (position_of_run h.failed).2
  have later := Cursor.lt_stop_trim (l := l ++ '(' :: inner) (x := ')') (r := r) start (by decide)
  have around : l ++ '(' :: inner ++ ')' :: r = l ++ grouped inner ++ r := by simp [grouped]
  rw [around, ← stop, s.position] at later
  simp only [Cursor.stop, Cursor.length, List.length_append, List.length_cons] at inside later
  omega

/-- A malformed group fails as the text in it does. -/
theorem surfaces_group (h : Malformed inner e) (start : Nat) :
    ∃ f, (run .primary ⟨grouped inner, start⟩).result = .error f ∧ Surfaces inner e start f := by
  have failed : (run .additive ⟨inner, start + 1⟩).result = .error (e.shift (start + 1)) := by
    have moved := (run_shift (start + 1)).1 .additive ⟨inner, 0⟩
    rw [Cursor.shift, Nat.zero_add] at moved
    rw [moved, Run.shift, h.failed, shiftResult]
  have around : grouped inner = ['('] ++ inner ++ [')'] := by simp [grouped]
  refine ⟨(e.shift (start + 1)).within (.inside .parentheses) ⟨grouped inner, start⟩, ?_, ?_⟩
  · rw [around]
    refine (Enclosure.Encloses.parentheses.result_run (around ▸ core_grouped inner) h.not_blank
      start).trans ?_
    exact Run.result_map_eq_error.2 (Run.result_mapFailure_eq_error.2 ⟨_, failed, rfl⟩)
  · exact ⟨rfl, by simp only [Failure.within, Failure.shift, Nat.add_assoc], [], rfl⟩

end Malformed

/-! ### Groups in chains -/

/-- Of a head and further pieces one has a symbol, after so many characters of them all, and in its
place the other head and pieces have the group. -/
inductive Patched (inner : List Char) : Nat → List Char → List Piece → List Char → List Piece → Prop
  | head {l name r : List Char} (between : SymbolBetween l name r) (tail : List Piece) :
      Patched inner l.length (l ++ name ++ r) tail (l ++ grouped inner ++ r) tail
  | tail {k : Nat} {piece piece' : List Char} {tail tail' : List Piece} (head : List Char)
      (op : BinaryOperator) : Patched inner k piece tail piece' tail' →
      Patched inner (head.length + 1 + k) head ((op, piece) :: tail) head ((op, piece') :: tail')

theorem Patched.widen {text text' : List Char} {rest rest' : List Piece}
    (h : Patched inner k text rest text' rest') (front : List Char) (op : BinaryOperator) :
    Patched inner (front.length + 1 + k) (front ++ op.symbol :: text) rest
      (front ++ op.symbol :: text') rest' := by
  cases h with
  | @head l name r between =>
    have ends : EndsToken (front ++ [op.symbol] ++ l) := by
      refine EndsToken.append ?_ between.ends
      simpa [EndsToken] using op.isMark_symbol.1
    have widened : SymbolBetween (front ++ [op.symbol] ++ l) name r := { between with ends := ends }
    have patched : Patched inner _ _ rest _ rest := .head widened rest
    simpa [Nat.add_assoc, Nat.add_comm 1] using patched
  | @tail k piece piece' tail tail' head op' inside =>
    have moved := Patched.tail (front ++ op.symbol :: text) op' inside
    have length : (front ++ op.symbol :: text).length + 1 + k =
        front.length + 1 + (text.length + 1 + k) := by
      simp
      omega
    rwa [length] at moved

/-- A group is cut out with the piece that the symbol in its place is cut out with. -/
theorem Malformed.exists_patched (h : Malformed inner e) {head : List Char} {tail : List Piece}
    (between : SymbolBetween l name r) (nonneg : (Depth.zero.through l).Nonneg)
    (cut : pieces (among? operators) .zero (l ++ name ++ r) = (head, tail)) :
    ∃ head' tail', pieces (among? operators) .zero (l ++ grouped inner ++ r) =
      (head', tail') ∧ Patched inner l.length head tail head' tail' := by
  induction tail generalizing l head with
  | nil =>
    obtain ⟨rfl, hides⟩ := pieces_eq_nil_iff.1 cut
    exact ⟨_, [], pieces_of_hides (h.hides between.isName nonneg hides), .head between []⟩
  | cons p tail ih =>
    obtain ⟨op, piece⟩ := p
    obtain ⟨mem, outside, hides, rest, eq, cut_rest⟩ := pieces_eq_cons_iff.1 cut
    rcases between.isName.cut op.isMark_symbol.1 eq with ⟨m, rfl, rfl⟩ | ⟨m, rfl, rfl⟩
    · -- the symbol stands behind the first operator
      have depth : Depth.zero.through (head ++ op.symbol :: m) = Depth.zero.through m := by
        rw [Depth.through_append, outside, Depth.through_cons,
          Depth.after_of_isBracket_eq_false op.isBracket_symbol]
      have moved : SymbolBetween (head ++ [op.symbol] ++ m) name (r ++ []) := by simpa using between
      obtain ⟨piece', tail', cut', patched⟩ := ih moved.of_append (depth ▸ nonneg) cut_rest
      refine ⟨head, (op, piece') :: tail',
        pieces_eq_cons_iff.2 ⟨mem, outside, hides, _, ?_, cut'⟩, ?_⟩
      · simp
      · have := Patched.tail head op patched
        simpa [Nat.add_assoc, Nat.add_comm 1] using this
    · have here : SymbolBetween ([] ++ l) name (m ++ op.symbol :: rest) := between
      refine ⟨l ++ grouped inner ++ m, (op, piece) :: tail, pieces_eq_cons_iff.2
        ⟨mem, ?_, h.hides between.isName nonneg hides, rest, by simp, cut_rest⟩,
        .head here.of_append _⟩
      rw [h.through_patch between.isName, outside]

/-! ### Groups in what is parsed -/

/-- What a level leaves to the next one with a symbol in it, it leaves with a group. -/
theorem Malformed.step_descend (h : Malformed inner e) (between : SymbolBetween l name r)
    (nonneg : (Depth.zero.through l).Nonneg)
    (hs : level.step ⟨l ++ name ++ r, start⟩ = .descend next)
    (next_level : level.next? = some next) :
    level.step ⟨l ++ grouped inner ++ r, start⟩ = .descend next := by
  cases level <;> cases next_level
  case additive => cases hs
  case multiplicative => cases hs
  case exponential =>
    exact step_exponential_iff.2 (h.hides between.isName nonneg (step_exponential_iff.1 hs))
  case unary =>
    refine step_unary_iff.2 fun x mem => ?_
    cases l with
    | nil =>
      obtain rfl := Option.some.inj mem
      rfl
    | cons y l => exact step_unary_iff.1 hs x mem
  case transpose =>
    refine step_transpose_iff.2 ?_
    have last := step_transpose_iff.1 hs
    rcases List.eq_nil_or_concat' r with rfl | ⟨r, y, rfl⟩
    · rw [List.append_nil, grouped, Step.getLast?_append_cons_concat]
      decide
    · rw [← List.append_assoc, List.getLast?_concat] at last ⊢
      exact last

/-- A power with a symbol in its base or its exponent is cut alike with a group there. -/
theorem Malformed.step_power (h : Malformed inner e) {base exponent : Cursor}
    (between : SymbolBetween l name r) (nonneg : (Depth.zero.through l).Nonneg)
    (hs : Level.exponential.step ⟨l ++ name ++ r, start⟩ = .power base op exponent) :
    (∃ m other, base = ⟨l ++ name ++ m, start⟩ ∧ SymbolBetween l name m ∧
      Level.exponential.step ⟨l ++ grouped inner ++ r, start⟩ =
        .power ⟨l ++ grouped inner ++ m, start⟩ op other) ∨
    ∃ m, exponent.text = m ++ name ++ r ∧ SymbolBetween m name r ∧
      start + l.length = exponent.start + m.length ∧
      Level.exponential.step ⟨l ++ grouped inner ++ r, start⟩ =
        .power base op ⟨m ++ grouped inner ++ r, exponent.start⟩ := by
  obtain ⟨base, base_start⟩ := base
  obtain ⟨mem, outside, hides, cut, rfl, at_exponent⟩ := step_power_iff.1 hs
  rcases between.isName.cut op.isMark_symbol.1 cut with ⟨m, rfl, text⟩ | ⟨m, rfl, rfl⟩
  · right
    have moved : SymbolBetween (base ++ [op.symbol] ++ m) name (r ++ []) := by simpa using between
    refine ⟨m, text, moved.of_append, ?_, ?_⟩
    · simp [at_exponent]
      omega
    · exact step_power_iff.2 ⟨mem, outside, hides, by simp, rfl, at_exponent⟩
  · left
    have here : SymbolBetween ([] ++ l) name (m ++ op.symbol :: exponent.text) := between
    refine ⟨m, ⟨exponent.text, base_start + (l ++ grouped inner ++ m).length + 1⟩, rfl,
      here.of_append, step_power_iff.2 ⟨mem, ?_, h.hides between.isName nonneg hides, ?_, rfl, rfl⟩⟩
    · rw [h.through_patch between.isName, outside]
    · simp

/-- What surfaces of a malformed group, wherever it stands in a text that is parsed or runs out. -/
theorem Malformed.surfaces (h : Malformed inner e) : ∀ (level : Level) (c : Cursor)
    (l name r : List Char), c.text = l ++ name ++ r → SymbolBetween l name r → InOrder level c →
    ∃ f, (run level ⟨l ++ grouped inner ++ r, c.start⟩).result = .error f ∧
      Surfaces inner e (c.start + l.length) f := by
  have core_group := core_grouped inner
  refine (parse_induction
    (P := fun level c => ∀ l name r, c.text = l ++ name ++ r → SymbolBetween l name r →
      InOrder level c → ∃ f, (run level ⟨l ++ grouped inner ++ r, c.start⟩).result = .error f ∧
        Surfaces inner e (c.start + l.length) f)
    (Q := fun next folded pending tail => ChainInOrder next folded pending tail →
      (∀ x ∈ (joined symbol pending.text tail).getLast?, isBlank x = false) →
      ∀ k head' tail', Patched inner k pending.text tail head' tail' →
        ∃ f, (chain next folded ⟨head', pending.start⟩ tail').result = .error f ∧
          Surfaces inner e (pending.start + k) f)
    ?blank ?fail ?symbol ?descend ?enclose ?power ?chain ?last ?more).1
  case blank =>
    intro level c blank l name r eq between
    rw [eq] at blank
    exact absurd blank (not_blank_append between.isName.not_blank l r)
  case fail =>
    -- neither what is parsed nor what runs out fails at its first step
    rintro level c cause position not_blank hs l name r - - (⟨o, ok⟩ | dangles)
    · cases (result_of_fail not_blank hs).symm.trans ok
    · exact absurd hs (dangles.not_fail not_blank)
  case symbol =>
    intro level c occurrence not_blank hs l name r eq between _
    obtain ⟨l, r, trimmed, between, position, core, same⟩ := between.exists_trim eq core_group
    obtain ⟨rfl, names, -⟩ := cuts_of_step not_blank hs
    rw [trimmed] at names
    obtain ⟨rfl, rfl⟩ := between.eq_nil_of_isName names
    rw [same, position, List.nil_append, List.append_nil]
    exact h.surfaces_group c.trim.start
  case descend =>
    intro level c next not_blank hs ih l name r eq between inOrder
    obtain ⟨l, r, trimmed, between, position, core, same⟩ := between.exists_trim eq core_group
    have next_level : level.next? = some next := cuts_of_step not_blank hs
    have inner_order := inOrder.of_descend not_blank hs
    have nonneg := inner_order.nonneg (Cursor.core_trim not_blank).not_blank
      (trimmed.trans (List.append_assoc l name r))
    have whole : c.trim = ⟨l ++ name ++ r, c.trim.start⟩ := by rw [← trimmed]
    rw [whole] at hs
    have step := h.step_descend between nonneg hs next_level
    rw [same, position, result_run_of_descend core step]
    exact ih l name r trimmed between inner_order
  case enclose =>
    intro level c enclosure operand not_blank hs ih l name r eq between inOrder
    obtain ⟨l, r, trimmed, between, position, core, same⟩ := between.exists_trim eq core_group
    obtain ⟨rfl, -, before, behind, encloses, text, at_operand⟩ := cuts_of_step not_blank hs
    obtain ⟨l, r, rfl, operand_text, rfl⟩ :=
      encloses.exists_inside between (trimmed.symm.trans text)
    obtain ⟨f, failed, s⟩ :=
      ih l name r operand_text between.of_append (inOrder.of_enclose not_blank hs)
    have around : before ++ l ++ grouped inner ++ (r ++ behind) =
        before ++ (l ++ grouped inner ++ r) ++ behind := by simp
    have group_not_blank := not_blank_append core_group.not_blank l r
    rw [around] at core same
    rw [same, position, encloses.result_run core group_not_blank]
    rw [at_operand] at failed s
    refine ⟨_, Run.result_map_eq_error.2 (Run.result_mapFailure_eq_error.2 ⟨f, failed, rfl⟩), ?_⟩
    rw [List.length_append, ← Nat.add_assoc]
    exact s.within _ _
  case power =>
    intro level c base op exponent not_blank hs ih_base ih_exponent l name r eq between inOrder
    obtain ⟨l, r, trimmed, between, position, core, same⟩ := between.exists_trim eq core_group
    obtain ⟨rfl, -⟩ := cuts_of_step not_blank hs
    obtain ⟨⟨left, ok⟩, exponent_order⟩ := inOrder.of_power not_blank hs
    have nonneg := inOrder.trim.nonneg (Cursor.core_trim not_blank).not_blank
      (trimmed.trans (List.append_assoc l name r))
    have whole : c.trim = ⟨l ++ name ++ r, c.trim.start⟩ := by rw [← trimmed]
    rw [whole] at hs
    rw [same, position]
    -- the exponent is read only once the base has been, and the base stays as it was
    rcases h.step_power between nonneg hs with
      ⟨m, other, rfl, between, step⟩ | ⟨m, exponent_text, between, offset, step⟩
    · obtain ⟨f, failed, s⟩ := ih_base l name m rfl between (.inl ⟨left, ok⟩)
      rw [result_of_power core.not_blank (by rwa [Cursor.trim_eq_self core])]
      exact ⟨_, Run.result_andThen_eq_error.2 (.inl (Run.result_asOperand_of_error failed)),
        h.ofOperand s .left op _⟩
    · obtain ⟨f, failed, s⟩ := ih_exponent m name r exponent_text between exponent_order
      rw [result_run_of_power core step ok, offset]
      exact ⟨_, Run.result_map_asOperand_of_error failed, h.ofOperand s .right op _⟩
  case chain =>
    intro level c next head tail not_blank hs ih l name r eq between inOrder
    obtain ⟨l, r, trimmed, between, position, core, same⟩ := between.exists_trim eq core_group
    obtain ⟨chains, at_head, text, -⟩ := cuts_of_step not_blank hs
    have nonneg := inOrder.trim.nonneg (Cursor.core_trim not_blank).not_blank
      (trimmed.trans (List.append_assoc l name r))
    have last := (Cursor.core_trim not_blank).last
    rw [← text] at last
    have cut : pieces (among? level.operators) .zero (l ++ name ++ r) = (head.text, tail) := by
      rw [step_of_chains chains, Step.chainOf, trimmed] at hs
      obtain ⟨-, rfl, rfl⟩ := Step.chain.inj hs
      rfl
    obtain ⟨head', tail', cut', patched⟩ := h.exists_patched between nonneg cut
    have step : level.step ⟨l ++ grouped inner ++ r, c.trim.start⟩ =
        .chain next ⟨head', c.trim.start⟩ tail' := by
      rw [step_of_chains chains, Step.chainOf, cut']
    rw [same, position, result_run_of_chain core step, ← at_head]
    exact ih (inOrder.of_chain not_blank hs) last _ head' tail' patched
  case last =>
    rintro next folded ⟨text, start⟩ ih inOrder last k head' tail' patched
    rw [joined_nil] at last
    cases patched with
    | @head l name r between =>
      obtain ⟨f, failed, s⟩ := ih l name r rfl between (inOrder.of_nil last)
      obtain ⟨g, failed, s⟩ := h.asLast s folded failed
      rw [chain_nil]
      exact ⟨g, Run.result_map_eq_error.2 failed, s⟩
  case more =>
    rintro next folded ⟨text, start⟩ op piece rest ih ih_beyond ih_widened inOrder last k head'
      tail' patched
    cases patched with
    | @head l name r between =>
      -- the operand with the group in it fails and is not widened, whether the symbol let it be
      have operand : InOrder next ⟨l ++ name ++ r, start⟩ := by
        rcases inOrder.of_cons with ⟨operand, ok, -⟩ | ⟨-, dangles, -⟩
        · exact .inl ⟨operand, ok⟩
        · exact .inr dangles
      obtain ⟨f, failed, s⟩ := ih l name r rfl between operand
      obtain ⟨g, failed, s⟩ := h.asOperand s folded op failed
      refine ⟨g, result_chain_cons_of_error failed fun again => ?_, s⟩
      exact h.not_isDangling s (Bool.and_eq_true_iff.1 again).2
    | @tail k _ piece' _ tail' _ _ patched =>
      -- the pending operand has no group in it and is read as before: alone, or with what follows
      rcases inOrder.of_cons with ⟨operand, ok, beyond⟩ | ⟨sign, dangles, widened⟩
      · rw [joined_cons] at last
        obtain ⟨f, failed, s⟩ := ih_beyond operand beyond
          (fun x mem => last x (mem_getLast?_append_cons mem)) k piece' tail' patched
        rw [result_chain_cons_of_ok ok]
        have offset : start + (text.length + 1 + k) =
            ((Cursor.mk text start).beyond piece).start + k := by
          simp [Cursor.beyond, Cursor.stop]
          omega
        rw [offset]
        exact ⟨f, failed, s⟩
      · rw [← joined_append_cons] at last
        rw [result_chain_cons_of_dangles sign dangles]
        exact ih_widened widened last _ _ _ (patched.widen text op)

/-! ### Groups in expressions -/

/-- A malformed text in parentheses in the place of a symbol fails the parse of the whole as it
fails alone: with the same cause, at the offset where the fault is written, and with its own trail
behind that of the group. -/
theorem surfaces_parse {text inner : String} {o : Outcome} {x : Occurrence} {e : Failure}
    (ok : (parse text).result = .ok o) (mem : x ∈ o.occurrences)
    (not_blank : ¬ Blank inner.toList) (balanced : Balanced inner.toList)
    (failed : (parse inner).result = .error e) :
    ∃ f, (parse (String.ofList (text.toList.take x.position ++ grouped inner.toList ++
        text.toList.drop (x.position + x.name.length)))).result = .error f ∧
      f.cause = e.cause ∧ f.position = e.position + x.position + 1 ∧
      ∃ outer, f.trail = outer ++
        ⟨.inside .parentheses, ⟨grouped inner.toList, x.position⟩⟩ ::
          e.trail.map (Frame.shift (x.position + 1)) := by
  have malformed : Malformed inner.toList e := ⟨not_blank, balanced, failed⟩
  have written : Written .additive 0 text.toList o := written_of_run _ _ _ ok
  obtain ⟨l, r, whole, at_x, between⟩ := written.mem_leaves_iff.1 mem
  rw [Nat.zero_add] at at_x
  have front : text.toList.take x.position = l := by
    rw [whole, at_x, List.append_assoc, List.take_left]
  have behind : text.toList.drop (x.position + x.name.length) = r := by
    rw [whole, at_x, ← String.length_toList, ← List.length_append, List.drop_left]
  obtain ⟨f, surfaced, cause, position, trail⟩ :=
    malformed.surfaces .additive ⟨text.toList, 0⟩ l x.name.toList r whole between (.inl ⟨o, ok⟩)
  rw [Nat.zero_add, ← at_x] at position trail
  refine ⟨f, ?_, cause, position, trail⟩
  rw [front, behind, parse, Cursor.ofString, String.toList_ofList]
  exact surfaced

/-- A group that lacks an operand at its end, behind a sign that is found by reading on. -/
theorem surfaces_parse_signed :
    (parse "a*-b").result =
        .ok (.binary (.leaf ⟨"a", 0⟩) .multiply (.signed .minus (.leaf ⟨"b", 3⟩))) ∧
      (parse "c+").result =
        .error ⟨.missingOperand .right .add, 2, [⟨.operand .right .add, ⟨[], 2⟩⟩]⟩ ∧
      ∃ f, (parse (String.ofList ("a*-b".toList.take 3 ++ grouped "c+".toList ++
          "a*-b".toList.drop (3 + "b".length)))).result = .error f ∧
        f.cause = .missingOperand .right .add ∧ f.position = 6 ∧
        ∃ outer, f.trail = outer ++ ⟨.inside .parentheses, ⟨grouped "c+".toList, 3⟩⟩ ::
          [⟨.operand .right .add, ⟨[], 6⟩⟩] := by
  have ok : (parse "a*-b").result =
      .ok (.binary (.leaf ⟨"a", 0⟩) .multiply (.signed .minus (.leaf ⟨"b", 3⟩))) := by cbv
  have failed : (parse "c+").result =
      .error ⟨.missingOperand .right .add, 2, [⟨.operand .right .add, ⟨[], 2⟩⟩]⟩ := by cbv
  have balanced : Balanced "c+".toList := by
    refine ⟨fun p front => ?_, by decide, by decide⟩
    have none : ')' ∉ p := fun mem => absurd (front.mem mem) (by decide)
    rw [List.count_eq_zero_of_not_mem none]
    exact Nat.zero_le _
  exact ⟨ok, failed, surfaces_parse ok (x := ⟨"b", 3⟩) (by decide) (by decide) balanced failed⟩

end Formula
