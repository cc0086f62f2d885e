import Formula.Proofs.Step
import Formula.Proofs.Tokens

/-!
# Respaced texts

Two texts with the same tokens differ only in blanks that neither join nor split names. Whatever the
parser looks at in one step, it sees in both of them: the marks at the ends of a core, the operators
outside brackets, names, and whether there is anything but blanks. So a level does the same to the
cores of both, and the parts it cuts out have the same tokens again (`step_alike`).
-/

namespace Formula

open BinaryOperator (among?)

variable {c : Char} {text text' l l' r r' u u' : List Char} {start start' : Nat}
  {op : BinaryOperator} {operators : List BinaryOperator}

/-! ### What is seen in both texts -/

theorem blank_iff_of_tokens_eq (h : tokens text = tokens text') : Blank text ↔ Blank text' := by
  rw [← tokens_eq_nil_iff, h, tokens_eq_nil_iff]

theorem isEmpty_trim_iff_of_tokens_eq (h : tokens text = tokens text') :
    (Cursor.mk text start).trim.isEmpty = true ↔ (Cursor.mk text' start').trim.isEmpty = true := by
  rw [Cursor.isEmpty_trim_iff, Cursor.isEmpty_trim_iff]
  exact blank_iff_of_tokens_eq h

theorem tokens_trim (c : Cursor) : tokens c.trim.text = tokens c.text := by
  by_cases blank : Blank c.text
  · rw [Cursor.trim_of_blank blank, tokens_nil, tokens_eq_nil_iff.2 blank]
  · obtain ⟨v, u, w, hv, -, hw, text, trimmed⟩ := Cursor.exists_trim blank
    rw [text, trimmed, tokens_append_blank hw, tokens_blank_append hv]

/-- Both texts can be cut at the same mark. -/
theorem exists_cut (isMark : IsMark c) (h : tokens (l ++ c :: r) = tokens text') :
    ∃ l' r', text' = l' ++ c :: r' ∧ tokens l = tokens l' ∧ tokens r = tokens r' := by
  rw [tokens_append_mark isMark] at h
  obtain ⟨-, l', r', rfl, hl, hr⟩ := exists_of_tokens_eq h.symm
  exact ⟨l', r', rfl, hl.symm, hr.symm⟩

theorem mem_of_tokens_eq (isMark : IsMark c) (h : tokens text = tokens text') (mem : c ∈ text) :
    c ∈ text' := by
  obtain ⟨l, r, rfl⟩ := List.append_of_mem mem
  obtain ⟨l', r', rfl, -⟩ := exists_cut isMark h
  simp

theorem Core.exists_cut_head (core : Core u') (isMark : IsMark c)
    (h : tokens (c :: r) = tokens u') : ∃ r', u' = c :: r' ∧ tokens r = tokens r' := by
  obtain ⟨l', r', rfl, front, hr⟩ := exists_cut (l := []) isMark h
  rw [tokens_nil] at front
  obtain rfl := core.eq_nil_of_blank_left (tokens_eq_nil_iff.1 front.symm)
  exact ⟨r', rfl, hr⟩

theorem Core.exists_cut_last (core : Core u') (isMark : IsMark c)
    (h : tokens (l ++ [c]) = tokens u') : ∃ l', u' = l' ++ [c] ∧ tokens l = tokens l' := by
  obtain ⟨l', r', rfl, hl, behind⟩ := exists_cut isMark h
  rw [tokens_nil] at behind
  have around : l' ++ c :: r' = l' ++ [c] ++ r' := by simp
  rw [around] at core ⊢
  obtain rfl := core.eq_nil_of_blank_right (tokens_eq_nil_iff.1 behind.symm)
  exact ⟨l', by simp, hl⟩

theorem Core.head?_iff (core : Core u) (core' : Core u') (isMark : IsMark c)
    (h : tokens u = tokens u') : u.head? = some c ↔ u'.head? = some c := by
  constructor
  · intro head
    obtain ⟨r, rfl⟩ := List.head?_eq_some_iff.1 head
    obtain ⟨r', rfl, -⟩ := core'.exists_cut_head isMark h
    rfl
  · intro head
    obtain ⟨r', rfl⟩ := List.head?_eq_some_iff.1 head
    obtain ⟨r, rfl, -⟩ := core.exists_cut_head isMark h.symm
    rfl

theorem Core.getLast?_iff (core : Core u) (core' : Core u') (isMark : IsMark c)
    (h : tokens u = tokens u') : u.getLast? = some c ↔ u'.getLast? = some c := by
  constructor
  · intro last
    obtain ⟨l, rfl⟩ := List.getLast?_eq_some_iff.1 last
    obtain ⟨l', rfl, -⟩ := core'.exists_cut_last isMark h
    exact List.getLast?_concat
  · intro last
    obtain ⟨l', rfl⟩ := List.getLast?_eq_some_iff.1 last
    obtain ⟨l, rfl, -⟩ := core.exists_cut_last isMark h.symm
    exact List.getLast?_concat

/-! ### Operators outside brackets -/

/-- The depth behind a token. -/
def Depth.afterToken (d : Depth) : Token → Depth
  | .name _ => d
  | .mark c => d.after c

theorem Depth.through_eq_foldl (text : List Char) :
    ∀ d : Depth, d.through text = (tokens text).foldl afterToken d := by
  induction text using text_induction with
  | nil => simp [tokens_nil]
  | blank c rest isBlank ih =>
    intro d
    have plain := Blank.isBracket_eq_false (blank_cons.2 ⟨isBlank, blank_nil⟩) c List.mem_cons_self
    rw [through_cons, after_of_isBracket_eq_false plain, tokens_cons_blank isBlank, ih]
  | mark c rest isMark ih =>
    intro d
    rw [through_cons, tokens_cons_mark isMark, ih, List.foldl_cons, afterToken]
  | name n rest isName starts ih =>
    intro d
    rw [through_append, through_of_forall isName.isBracket_eq_false,
      tokens_name_append isName starts, ih, List.foldl_cons, afterToken]

theorem Depth.through_eq_of_tokens_eq (h : tokens text = tokens text') (d : Depth) :
    d.through text = d.through text' := by
  rw [through_eq_foldl, h, ← through_eq_foldl]

theorem Hides.of_tokens_eq (hides : Hides operators text) (h : tokens text = tokens text') :
    Hides operators text' := by
  rintro p op q rfl mem
  obtain ⟨p', q', rfl, front, -⟩ := exists_cut op.isMark_symbol h.symm
  rw [Depth.through_eq_of_tokens_eq front]
  exact hides p' op q' rfl mem

/-- The operators of pieces, each with the tokens behind it. -/
def tailTokens (tail : List Piece) : List (BinaryOperator × List Token) :=
  tail.map fun p => (p.1, tokens p.2)

/-- Both texts are cut at the same operators. -/
theorem exists_pieces {head : List Char} {tail : List Piece} (h : tokens text = tokens text')
    (cut : pieces (among? operators) .zero text = (head, tail)) :
    ∃ head' tail', pieces (among? operators) .zero text' = (head', tail') ∧
      tokens head = tokens head' ∧ tailTokens tail = tailTokens tail' := by
  induction tail generalizing text text' head with
  | nil =>
    obtain ⟨rfl, hides⟩ := pieces_eq_nil_iff.1 cut
    exact ⟨text', [], pieces_of_hides (hides.of_tokens_eq h), h, rfl⟩
  | cons p tail ih =>
    obtain ⟨op, piece⟩ := p
    obtain ⟨mem, outside, hides, rest, rfl, cut_rest⟩ := pieces_eq_cons_iff.1 cut
    obtain ⟨head', rest', rfl, same_head, same_rest⟩ := exists_cut op.isMark_symbol h
    obtain ⟨piece', tail', cut_rest', same_piece, same_tail⟩ := ih same_rest cut_rest
    refine ⟨head', (op, piece') :: tail', pieces_eq_cons_iff.2 ⟨mem, ?_,
      hides.of_tokens_eq same_head, rest', rfl, cut_rest'⟩, same_head, ?_⟩
    · rw [← Depth.through_eq_of_tokens_eq same_head, outside]
    · rw [tailTokens, tailTokens, List.map_cons, List.map_cons, same_piece]
      exact congrArg _ same_tail

/-! ### Steps -/

/-- Two steps that do the same, up to blanks: failures of one kind, or parts with the same
tokens. -/
inductive Step.Alike : Step → Step → Prop
  | fail {cause cause' : Cause} {position position' : Nat} (kind : cause.kind = cause'.kind)
      (side : cause.side? = cause'.side?) (operator : cause.operator? = cause'.operator?) :
      Alike (fail cause position) (fail cause' position')
  | symbol {name : String} {position position' : Nat} :
      Alike (symbol ⟨name, position⟩) (symbol ⟨name, position'⟩)
  | descend (next : Level) : Alike (descend next) (descend next)
  | enclose (enclosure : Enclosure) {operand operand' : Cursor}
      (same : tokens operand.text = tokens operand'.text) :
      Alike (enclose enclosure operand) (enclose enclosure operand')
  | power (op : BinaryOperator) {base base' exponent exponent' : Cursor}
      (same_base : tokens base.text = tokens base'.text)
      (same_exponent : tokens exponent.text = tokens exponent'.text) :
      Alike (power base op exponent) (power base' op exponent')
  | chain (next : Level) {head head' : Cursor} {tail tail' : List Piece}
      (same_head : tokens head.text = tokens head'.text)
      (same_tail : tailTokens tail = tailTokens tail') :
      Alike (chain next head tail) (chain next head' tail')

namespace Step

theorem alike_chainOf (next : Level) (h : tokens u = tokens u') :
    Alike (chainOf next operators ⟨u, start⟩) (chainOf next operators ⟨u', start'⟩) := by
  unfold chainOf
  cases cut : pieces (among? operators) .zero u with
  | mk head tail =>
    obtain ⟨head', tail', cut', same_head, same_tail⟩ := exists_pieces h cut
    rw [cut']
    exact .chain next same_head same_tail

theorem alike_exponential (h : tokens u = tokens u') :
    Alike (Level.exponential.step ⟨u, start⟩) (Level.exponential.step ⟨u', start'⟩) := by
  cases found : (Cursor.mk u start).findSplit (among? BinaryOperator.powers) 0 with
  | none =>
    have hides := findSplit_eq_none_iff.1 found
    rw [step_exponential_iff.2 hides, step_exponential_iff.2 (hides.of_tokens_eq h)]
    exact .descend .unary
  | some split =>
    obtain ⟨⟨base, s⟩, op, ⟨exponent, s'⟩⟩ := split
    obtain ⟨mem, outside, hides, rfl, rfl, rfl⟩ := findSplit_eq_some_iff.1 found
    obtain ⟨base', exponent', rfl, same_base, same_exponent⟩ := exists_cut op.isMark_symbol h
    have outside' : Depth.zero.through base' = .zero := by
      rw [← Depth.through_eq_of_tokens_eq same_base, outside]
    have step : Level.exponential.step ⟨base ++ op.symbol :: exponent, s⟩ =
        .power ⟨base, s⟩ op ⟨exponent, s + base.length + 1⟩ :=
      step_power_iff.2 ⟨mem, outside, hides, rfl, rfl, rfl⟩
    have step' : Level.exponential.step ⟨base' ++ op.symbol :: exponent', start'⟩ =
        .power ⟨base', start'⟩ op ⟨exponent', start' + base'.length + 1⟩ :=
      step_power_iff.2 ⟨mem, outside', hides.of_tokens_eq same_base, rfl, rfl, rfl⟩
    rw [step, step']
    exact .power op same_base same_exponent

/-- Two checks that come out alike. -/
theorem Alike.ite {p p' : Prop} [Decidable p] [Decidable p'] {s s' t t' : Step} (same : p ↔ p')
    (yes : p → Alike s s') (no : ¬ p → Alike t t') :
    Alike (if p then s else t) (if p' then s' else t') := by
  by_cases h : p
  · rw [if_pos h, if_pos (same.1 h)]
    exact yes h
  · rw [if_neg h, if_neg (mt same.2 h)]
    exact no h

theorem alike_unary (core : Core u) (core' : Core u') (h : tokens u = tokens u') :
    Alike (Level.unary.step ⟨u, start⟩) (Level.unary.step ⟨u', start'⟩) := by
  by_cases signed : ∃ sign : Sign, u.head? = some sign.symbol
  · obtain ⟨sign, head⟩ := signed
    obtain ⟨r, rfl⟩ := List.head?_eq_some_iff.1 head
    obtain ⟨r', rfl, same⟩ := core'.exists_cut_head sign.isMark_symbol h
    rw [Level.step, Level.step, ofUnary_sign, ofUnary_sign]
    refine .ite (isEmpty_trim_iff_of_tokens_eq same) (fun _ => .fail rfl rfl rfl) fun _ =>
      .enclose _ ?_
    rw [tokens_trim, tokens_trim, same]
  · have descend {v : List Char} {s : Nat} (none : ∀ sign : Sign, v.head? ≠ some sign.symbol) :
        Level.unary.step ⟨v, s⟩ = .descend .transpose := by
      refine step_unary_iff.2 fun x mem => ?_
      cases found : Sign.ofChar? x with
      | none => rfl
      | some sign =>
        obtain rfl := Sign.symbol_of_ofChar? found
        exact absurd mem (none sign)
    have none (sign : Sign) : u.head? ≠ some sign.symbol := fun head => signed ⟨sign, head⟩
    have none' (sign : Sign) : u'.head? ≠ some sign.symbol :=
      mt (core.head?_iff core' sign.isMark_symbol h).2 (none sign)
    rw [descend none, descend none']
    exact .descend .transpose

theorem alike_transpose (core : Core u) (core' : Core u') (h : tokens u = tokens u') :
    Alike (Level.transpose.step ⟨u, start⟩) (Level.transpose.step ⟨u', start'⟩) := by
  have last := core.getLast?_iff core' isMark_transposeMark h
  by_cases marked : u.getLast? = some transposeMark
  · obtain ⟨l, rfl⟩ := List.getLast?_eq_some_iff.1 marked
    obtain ⟨l', rfl, same⟩ := core'.exists_cut_last isMark_transposeMark h
    rw [Level.step, Level.step, ofTranspose_mark, ofTranspose_mark]
    refine .ite (isEmpty_trim_iff_of_tokens_eq same) (fun _ => .fail rfl rfl rfl) fun _ =>
      .enclose _ ?_
    rw [tokens_trim, tokens_trim, same]
  · rw [step_transpose_iff.2 marked, step_transpose_iff.2 (mt last.2 marked)]
    exact .descend .primary

/-- A text is the same name as another, or neither is a name. -/
theorem name_of_tokens_eq (core : Core u) (core' : Core u') (h : tokens u = tokens u') :
    (∃ n, name ⟨u, start⟩ = .ok n ∧ name ⟨u', start'⟩ = .ok n) ∨
      ∃ x p x' p', name ⟨u, start⟩ = .error (.invalidCharacter x, p) ∧
        name ⟨u', start'⟩ = .error (.invalidCharacter x', p') := by
  -- a core that is a name has no other token, so the other core is the name, too
  have same {v w : List Char} {s : Nat} {n : String} (cv : Core v) (cw : Core w)
      (hvw : tokens v = tokens w) (ok : name ⟨v, s⟩ = .ok n) : w = v := by
    have isName : IsName v := ⟨cv.ne_nil, (eq_of_name_eq_ok ok).1⟩
    exact cw.eq_of_tokens_eq (hvw.symm.trans isName.tokens_eq)
  cases result : name ⟨u, start⟩ with
  | ok n =>
    obtain rfl := same core core' h result
    obtain ⟨names, rfl⟩ := eq_of_name_eq_ok result
    exact .inl ⟨_, rfl, name_of_forall names⟩
  | error failed =>
    cases result' : name ⟨u', start'⟩ with
    | ok n =>
      obtain rfl := same core' core h.symm result'
      have named : name ⟨_, start⟩ = .ok _ := name_of_forall (eq_of_name_eq_ok result').1
      cases named.symm.trans result
    | error failed' =>
      obtain ⟨-, x, -, -, -, -, cause⟩ := eq_of_name_eq_error result
      obtain ⟨-, x', -, -, -, -, cause'⟩ := eq_of_name_eq_error result'
      obtain ⟨cause, p⟩ := failed
      obtain ⟨cause', p'⟩ := failed'
      exact .inr ⟨x.toString, p, x'.toString, p', by simp_all⟩

theorem alike_ofSymbol (core : Core u) (core' : Core u') (h : tokens u = tokens u') :
    Alike (ofSymbol ⟨u, start⟩) (ofSymbol ⟨u', start'⟩) := by
  unfold ofSymbol
  rcases name_of_tokens_eq core core' h with ⟨n, ok, ok'⟩ | ⟨x, p, x', p', failed, failed'⟩
  · rw [ok, ok']
    exact .symbol
  · rw [failed, failed']
    exact .fail rfl rfl rfl

theorem alike_ofGroup (core : Core ('(' :: r)) (core' : Core ('(' :: r'))
    (h : tokens r = tokens r') :
    Alike (ofGroup ⟨'(' :: r, start⟩) (ofGroup ⟨'(' :: r', start'⟩) := by
  have whole : tokens ('(' :: r) = tokens ('(' :: r') := by
    rw [tokens_cons_mark (by decide), tokens_cons_mark (by decide), h]
  have last := core.getLast?_iff core' (c := ')') (by decide) whole
  by_cases closed : ('(' :: r).getLast? = some ')'
  · obtain ⟨text, rfl⟩ := exists_of_getLast?_eq (l := []) (by decide) closed
    obtain ⟨text', rfl⟩ := exists_of_getLast?_eq (l := []) (by decide) (last.1 closed)
    rw [tokens_append_mark (by decide), tokens_append_mark (by decide),
      List.append_left_inj] at h
    rw [ofGroup_closed, ofGroup_closed]
    exact .ite (isEmpty_trim_iff_of_tokens_eq h) (fun _ => .fail rfl rfl rfl) fun _ => .enclose _ h
  · rw [ofGroup, ofGroup, if_pos (.inr closed), if_pos (.inr (mt last.2 closed))]
    exact .fail rfl rfl rfl

theorem alike_ofFunction (core : Core (l ++ '[' :: r))
    (core' : Core (l' ++ '[' :: r')) (first : '[' ∉ l) (same_l : tokens l = tokens l')
    (same_r : tokens r = tokens r') :
    Alike (ofFunction ⟨l ++ '[' :: r, start⟩ ((l ++ '[' :: r).takeWhile (· != '[')).length)
      (ofFunction ⟨l' ++ '[' :: r', start'⟩ ((l' ++ '[' :: r').takeWhile (· != '[')).length) := by
  have whole : tokens (l ++ '[' :: r) = tokens (l' ++ '[' :: r') := by
    rw [tokens_append_mark (by decide), tokens_append_mark (by decide), same_l, same_r]
  have first' : '[' ∉ l' := fun mem => first (mem_of_tokens_eq (by decide) same_l.symm mem)
  have last := core.getLast?_iff core' (c := ']') (by decide) whole
  by_cases closed : (l ++ '[' :: r).getLast? = some ']'
  · obtain ⟨text, rfl⟩ := exists_of_getLast?_eq (by decide) closed
    obtain ⟨text', rfl⟩ := exists_of_getLast?_eq (by decide) (last.1 closed)
    rw [tokens_append_mark (by decide), tokens_append_mark (by decide),
      List.append_left_inj] at same_r
    rw [ofFunction_closed first, ofFunction_closed first']
    refine .ite (isEmpty_trim_iff_of_tokens_eq same_l) (fun _ => .fail rfl rfl rfl) fun named => ?_
    have core_l : Core (Cursor.mk l start).trim.text :=
      Cursor.core_trim (mt Cursor.isEmpty_trim_iff.2 named)
    have core_l' : Core (Cursor.mk l' start').trim.text := by
      refine Cursor.core_trim (mt (fun blank => ?_) named)
      exact Cursor.isEmpty_trim_iff.2 ((blank_iff_of_tokens_eq same_l).2 blank)
    have same : tokens (Cursor.mk l start).trim.text = tokens (Cursor.mk l' start').trim.text := by
      rw [tokens_trim, tokens_trim, same_l]
    rcases name_of_tokens_eq core_l core_l' same with ⟨n, ok, ok'⟩ | ⟨x, p, x', p', failed, failed'⟩
    · rw [ok, ok']
      exact .ite (isEmpty_trim_iff_of_tokens_eq same_r) (fun _ => .fail rfl rfl rfl) fun _ =>
        .enclose _ same_r
    · rw [failed, failed']
      exact .fail rfl rfl rfl
  · have unclosed : (Cursor.mk (l ++ '[' :: r) start).last? ≠ some ']' := closed
    have unclosed' : (Cursor.mk (l' ++ '[' :: r') start').last? ≠ some ']' := mt last.2 closed
    rw [ofFunction, ofFunction, if_pos unclosed, if_pos unclosed']
    exact .fail rfl rfl rfl

theorem alike_primary (core : Core u) (core' : Core u') (h : tokens u = tokens u') :
    Alike (ofPrimary ⟨u, start⟩) (ofPrimary ⟨u', start'⟩) := by
  have bracket : '[' ∈ u ↔ '[' ∈ u' :=
    ⟨mem_of_tokens_eq (by decide) h, mem_of_tokens_eq (by decide) h.symm⟩
  refine .ite (core.head?_iff core' (by decide) h) (fun head => ?group) fun _ =>
    .ite bracket (fun mem => ?function) fun _ => alike_ofSymbol core core' h
  case group =>
    obtain ⟨r, rfl⟩ := List.head?_eq_some_iff.1 head
    obtain ⟨r', rfl, same⟩ := core'.exists_cut_head (by decide) h
    exact alike_ofGroup core core' same
  case function =>
    obtain ⟨l, r, rfl, first⟩ := List.eq_append_cons_of_mem mem
    obtain ⟨l', r', rfl, same_l, same_r⟩ := exists_cut (by decide) h
    exact alike_ofFunction core core' first same_l same_r

end Step

/-- A level does the same to two cores with the same tokens. -/
theorem step_alike (level : Level) (core : Core u) (core' : Core u') (h : tokens u = tokens u') :
    (level.step ⟨u, start⟩).Alike (level.step ⟨u', start'⟩) := by
  cases level with
  | additive => exact Step.alike_chainOf _ h
  | multiplicative => exact Step.alike_chainOf _ h
  | exponential => exact Step.alike_exponential h
  | unary => exact Step.alike_unary core core' h
  | transpose => exact Step.alike_transpose core core' h
  | primary => exact Step.alike_primary core core' h

end Formula
