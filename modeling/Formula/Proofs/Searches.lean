import Formula.Proofs.Candidates
import Formula.Proofs.Run
import Formula.Reading

/-!
# Searches for operands

`chain` has all operators outside brackets at hand before it parses an operand. The same operands
can be come by without the pieces: the text that is left is searched for its first operator, for the
second one if the first turns out to be a sign, and so on, and behind an operand the search begins
anew. `Reading.readOperands` and `Reading.readFurther` are these two loops, and in them the levels
hand out readings, of which the expressions and the lists of names are put together apart.

Both ways come to the same (`Reading.chain_eq_readOperands`). So a level reads a cursor as it does
when the parts that it cuts out are read by searches (`Reading.ofCursor_eq`).
-/

namespace Formula

open BinaryOperator (symbol among?)

/-! ### The loops -/

/-- Fewer operators are passed over than there are characters. -/
theorem Cursor.skip_lt_of_findSplit {τ : Type} {tag? : Char → Option τ} {skip : Nat} {c : Cursor}
    {s : Split τ} (found : c.findSplit tag? skip = some s) : skip < c.length := by
  by_contra beyond
  have none : c.findSplit tag? skip = none :=
    (findSplit_eq_none_iff_count c).2 (Nat.le_trans (Nat.count_le _) (Nat.le_of_not_lt beyond))
  rw [found] at none
  cases none

namespace Reading

/-- Reads what stands behind `op`, where `left` has been read in front of it, and folds the operands
to the left. An operand that runs out in front of a sign is read again with one operator more passed
over. -/
def readFurther (operators : List BinaryOperator) (read : Cursor → Run Reading) (left : Reading)
    (op : BinaryOperator) (text : Cursor) (skip : Nat) : Run Reading :=
  match _ : text.findSplit (among? operators) skip with
  | none => ((read text).asOperand .right op text).map (left.combine op)
  | some split =>
    ((read split.left).asOperand .right op split.left).follow fun
      | .ok middle =>
        readFurther operators read (left.combine op middle) split.tag split.right 0
      | .error f =>
        if split.tag.canSign && f.isDangling split.left then
          readFurther operators read left op text (skip + 1)
        else ⟨[], .error f⟩
termination_by (text.length, text.length - skip)
decreasing_by
  · have := Cursor.length_findSplit ‹text.findSplit (among? operators) skip = some split›
    exact Prod.Lex.left _ _ (by omega)
  · have := Cursor.skip_lt_of_findSplit ‹text.findSplit (among? operators) skip = some split›
    exact Prod.Lex.right _ (by omega)

/-- Reads the operands of a text one after another. A text without an operator is read as it is. -/
def readOperands (operators : List BinaryOperator) (read : Cursor → Run Reading) (text : Cursor)
    (skip : Nat) : Run Reading :=
  match _ : text.findSplit (among? operators) skip with
  | none => read text
  | some split =>
    ((read split.left).asOperand .left split.tag split.left).follow fun
      | .ok left => readFurther operators read left split.tag split.right 0
      | .error f =>
        if split.tag.canSign && f.isDangling split.left then
          readOperands operators read text (skip + 1)
        else ⟨[], .error f⟩
termination_by text.length - skip
decreasing_by
  have := Cursor.skip_lt_of_findSplit ‹text.findSplit (among? operators) skip = some split›
  omega

section

variable {operators : List BinaryOperator} {read : Cursor → Run Reading} {left : Reading}
  {op : BinaryOperator} {text : Cursor} {skip : Nat} {split : Split BinaryOperator}

theorem readFurther_of_none (h : text.findSplit (among? operators) skip = none) :
    readFurther operators read left op text skip =
      ((read text).asOperand .right op text).map (left.combine op) := by
  rw [readFurther]
  split <;> simp_all

theorem readFurther_of_some (h : text.findSplit (among? operators) skip = some split) :
    readFurther operators read left op text skip =
      ((read split.left).asOperand .right op split.left).follow fun
        | .ok middle =>
          readFurther operators read (left.combine op middle) split.tag split.right 0
        | .error f =>
          if split.tag.canSign && f.isDangling split.left then
            readFurther operators read left op text (skip + 1)
          else ⟨[], .error f⟩ := by
  rw [readFurther.eq_def]
  split <;> simp_all

theorem readOperands_of_none (h : text.findSplit (among? operators) skip = none) :
    readOperands operators read text skip = read text := by
  rw [readOperands]
  split <;> simp_all

theorem readOperands_of_some (h : text.findSplit (among? operators) skip = some split) :
    readOperands operators read text skip =
      ((read split.left).asOperand .left split.tag split.left).follow fun
        | .ok left => readFurther operators read left split.tag split.right 0
        | .error f =>
          if split.tag.canSign && f.isDangling split.left then
            readOperands operators read text (skip + 1)
          else ⟨[], .error f⟩ := by
  rw [readOperands.eq_def]
  split <;> simp_all

end

end Reading

/-! ### Searches and pieces -/

variable {level next : Level} {operators : List BinaryOperator} {text pending c head : Cursor}
  {skip : Nat} {op : BinaryOperator} {piece : List Char} {rest tail : List Piece}

/-- The operand in hand and the pieces behind it, when some operators of a text are passed over. -/
structure Offers (operators : List BinaryOperator) (text : Cursor) (skip : Nat) (pending : Cursor)
    (tail : List Piece) : Prop where
  pending_eq : pending = ⟨joined symbol (pieces (among? operators) .zero text.text).1
    ((pieces (among? operators) .zero text.text).2.take skip), text.start⟩
  tail_eq : (pieces (among? operators) .zero text.text).2.drop skip = tail

namespace Offers

theorem length_le (h : Offers operators text skip pending tail) :
    pending.length ≤ text.length := by
  have whole : joined symbol (pieces (among? operators) .zero text.text).1
      (pieces (among? operators) .zero text.text).2 = text.text := joined_pieces_among?
  rw [← List.take_append_drop skip (pieces (among? operators) .zero text.text).2] at whole
  have length := congrArg List.length whole
  rw [h.pending_eq]
  simp only [joined, List.flatMap_append, List.length_append, Cursor.length] at *
  omega

/-- With no operator left the operand in hand is the whole text. -/
theorem eq_of_nil (h : Offers operators text skip pending []) :
    pending = text ∧ text.findSplit (among? operators) skip = none := by
  have all := h.tail_eq
  constructor
  · rw [h.pending_eq, List.take_of_length_le (List.drop_eq_nil_iff.1 all), joined_pieces_among?]
  · rw [Cursor.findSplit, scan_natCast, all]
    rfl

theorem findSplit_eq (h : Offers operators text skip pending ((op, piece) :: rest)) :
    text.findSplit (among? operators) skip =
      some ⟨pending, op, ⟨joined symbol piece rest, pending.stop + 1⟩⟩ := by
  rw [Cursor.findSplit, scan_natCast, h.tail_eq, h.pending_eq]
  rfl

/-- Behind an operator the search begins anew. -/
theorem beyond (h : Offers operators text skip pending ((op, piece) :: rest)) :
    Offers operators ⟨joined symbol piece rest, pending.stop + 1⟩ 0 (pending.beyond piece) rest := by
  have around : (pieces (among? operators) .zero text.text).2 =
      (pieces (among? operators) .zero text.text).2.take skip ++ (op, piece) :: rest := by
    rw [← h.tail_eq, List.take_append_drop]
  have cut := pieces_joined_of_pieces_eq around
  exact ⟨by rw [cut, List.take_zero, joined_nil]; rfl, by rw [cut]; rfl⟩

/-- With one operator more passed over, the operand is wider. -/
theorem widen (h : Offers operators text skip pending ((op, piece) :: rest)) :
    Offers operators text (skip + 1) (pending.widen op piece) rest := by
  have here : (pieces (among? operators) .zero text.text).2[skip]? = some (op, piece) := by
    rw [← List.head?_drop, h.tail_eq]
    rfl
  refine ⟨?_, ?_⟩
  · rw [h.pending_eq, List.take_add_one, here]
    simp [Cursor.widen, joined]
  · rw [← List.drop_drop, h.tail_eq]
    rfl

end Offers

/-- A chain begins with all operators of its text in front of it. -/
theorem offers_of_step (not_blank : ¬ Blank c.text)
    (hs : level.step c.trim = .chain next head tail) :
    Offers level.operators c.trim 0 head tail := by
  obtain ⟨chains, -⟩ := cuts_of_step not_blank hs
  have cut : Step.chainOf next level.operators c.trim = .chain next head tail :=
    (step_of_chains chains).symm.trans hs
  obtain ⟨-, rfl, rfl⟩ := Step.chain.inj cut
  exact ⟨by rw [List.take_zero, joined_nil], rfl⟩

/-! ### Values of runs -/

namespace Run

variable {α β γ δ : Type} {r : Run α} {g : α → β}

theorem map_visiting (level : Level) (c : Cursor) :
    (r.visiting level c).map g = (r.map g).visiting level c := rfl

theorem map_map (h : β → γ) : (r.map g).map h = r.map (h ∘ g) := by
  unfold map
  cases r.result <;> rfl

theorem map_mapFailure (k : Failure → Failure) :
    (r.mapFailure k).map g = (r.map g).mapFailure k := by
  unfold map mapFailure
  cases r.result <;> rfl

theorem map_asOperand (side : Side) (op : BinaryOperator) (c : Cursor) :
    (r.asOperand side op c).map g = (r.map g).asOperand side op c :=
  map_mapFailure _

theorem map_within (enclosure : Enclosure) (c : Cursor) :
    (r.within enclosure c).map g = (r.map g).within enclosure c :=
  map_mapFailure _

/-- What goes on with the value of a run may as well go on with what becomes of the value. -/
theorem map_follow {next : Except Failure α → Run γ} {next' : Except Failure β → Run δ} {h : γ → δ}
    (same : ∀ x, (next x).map h = next' (x.map g)) :
    (r.follow next).map h = (r.map g).follow next' := by
  have here : next' (r.map g).result = (next r.result).map h := (same r.result).symm
  unfold follow
  rw [here]
  rfl

theorem map_andThen {next : α → Run γ} {next' : β → Run δ} {h : γ → δ}
    (same : ∀ a, (next a).map h = next' (g a)) :
    (r.andThen next).map h = (r.map g).andThen next' := by
  refine map_follow fun x => ?_
  cases x with
  | ok a => exact same a
  | error f => rfl

end Run

/-! ### Both ways come to the same -/

namespace Reading

/-- Behind an operator, the search goes on as the chain does. -/
theorem chain_eq_readFurther (offers : Offers operators text skip pending tail) (left : Outcome)
    (op : BinaryOperator) :
    (chain next (some (left, op)) pending tail).map Outcome.reading =
      readFurther operators (ofCursor next) left.reading op text skip := by
  -- on the operators ahead; `Offers` says that the next search finds the first of them
  induction tail generalizing text skip pending left op with
  | nil =>
    obtain ⟨rfl, none⟩ := offers.eq_of_nil
    have joins : Outcome.reading ∘ Folded.join (some (left, op)) =
        left.reading.combine op ∘ Outcome.reading :=
      funext fun right => Outcome.reading_binary left right op
    rw [chain_nil, readFurther_of_none none, ofCursor, ← Run.map_asOperand, Run.map_map,
      Run.map_map, joins]
    rfl
  | cons p rest ih =>
    obtain ⟨op', piece⟩ := p
    rw [chain_cons, readFurther_of_some offers.findSplit_eq, ofCursor, ← Run.map_asOperand]
    refine Run.map_follow fun x => ?_
    -- an operand that is read leaves the text behind its operator, a sign leaves the text as it is
    cases x with
    | ok middle => exact ih offers.beyond (.binary left op middle) op'
    | error f =>
      dsimp only [Except.map]
      split
      · exact ih offers.widen left op
      · rfl

/-- Searching a text for its operands comes to what `chain` makes of its pieces. -/
theorem chain_eq_readOperands (offers : Offers operators text skip pending tail) :
    (chain next none pending tail).map Outcome.reading =
      readOperands operators (ofCursor next) text skip := by
  induction tail generalizing skip pending with
  | nil =>
    obtain ⟨rfl, none⟩ := offers.eq_of_nil
    rw [chain_nil, readOperands_of_none none, Run.map_map]
    rfl
  | cons p rest ih =>
    obtain ⟨op, piece⟩ := p
    rw [chain_cons, readOperands_of_some offers.findSplit_eq, ofCursor, ← Run.map_asOperand]
    refine Run.map_follow fun x => ?_
    cases x with
    | ok left => exact chain_eq_readFurther offers.beyond left op
    | error f =>
      dsimp only [Except.map]
      split
      · exact ih offers.widen
      · rfl

/-- What a level reads in a trimmed cursor, according to the step that it makes. -/
def ofStep (level : Level) (c : Cursor) : Step → Run Reading
  | .fail cause position => .fail cause position
  | .symbol occurrence => .done (.symbol occurrence)
  | .descend next => ofCursor next c
  | .enclose enclosure operand =>
    ((ofCursor enclosure.operandLevel operand).within enclosure c).map (.wrap enclosure)
  | .power base op exponent =>
    ((ofCursor .transpose base).asOperand .left op base).andThen fun left =>
      ((ofCursor .unary exponent).asOperand .right op exponent).map (left.combine op)
  | .chain next _ _ => readOperands level.operators (ofCursor next) c 0

/-- A level reads its cursor by its step, and the parts by other readings. -/
theorem ofCursor_eq (level : Level) (c : Cursor) :
    ofCursor level c = .visiting level c.trim
      (if c.trim.isEmpty then .fail .emptyInput c.trim.start
        else ofStep level c.trim (level.step c.trim)) := by
  by_cases blank : Blank c.text
  · have empty : c.trim.length = 0 := Cursor.length_trim_eq_zero_iff.2 blank
    rw [ofCursor, run_of_empty empty, if_pos (Cursor.isEmpty_iff.2 empty)]
    rfl
  have nonempty := length_trim_ne_zero blank
  rw [if_neg (mt Cursor.isEmpty_iff.1 nonempty), ofCursor]
  cases hs : level.step c.trim with
  | fail cause position =>
    rw [run_of_fail nonempty hs]
    rfl
  | symbol occurrence =>
    rw [run_of_symbol nonempty hs]
    rfl
  | descend next =>
    rw [run_of_descend nonempty hs]
    rfl
  | enclose enclosure operand =>
    have wraps : Outcome.reading ∘ enclosure.wrap = Reading.wrap enclosure ∘ Outcome.reading :=
      funext (Outcome.reading_wrap enclosure)
    rw [run_of_enclose nonempty hs, Run.map_visiting, ofStep, ofCursor, ← Run.map_within,
      Run.map_map, Run.map_map, wraps]
  | power base op exponent =>
    rw [run_of_power nonempty hs, Run.map_visiting, ofStep, ofCursor, ← Run.map_asOperand]
    refine congrArg (Run.visiting level c.trim) (Run.map_andThen fun left => ?_)
    rw [ofCursor, ← Run.map_asOperand, Run.map_map, Run.map_map]
    rfl
  | chain next head tail =>
    rw [run_of_chain nonempty hs, Run.map_visiting, ofStep,
      chain_eq_readOperands (offers_of_step blank hs)]

end Reading

end Formula
