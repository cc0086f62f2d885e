import Formula.Proofs.Nesting
import Mathlib.Data.Nat.Count

/-!
# Candidates of a search

A search for operators takes a candidate: an operator that is no bracket and has as many opening
brackets in front of it as closing ones, for either kind. Brackets are only counted, so a candidate
may stand behind brackets that cross or were closed before they were opened. The search that passes
over `skip` operators finds the candidate that has exactly `skip` others in front of it
(`scan_eq_some_iff`).

A chain searches the text behind an operator anew, with both counts at zero. That is the old search
gone on with, since the counts are zero in front of every operator that is found (`scan_resume`).
-/

namespace Formula

variable {τ : Type} {tag? : Char → Option τ} {d : Depth} {c : Char} {l r text : List Char} {t : τ}
  {skip : Nat}

/-- Whether the character at an index is an operator outside brackets. -/
def isCandidate (tag? : Char → Option τ) (text : List Char) (i : Nat) : Bool :=
  text[i]?.any (fun c => (tag? c).isSome && !isBracket c) &&
    (text.take i).count '(' == (text.take i).count ')' &&
    (text.take i).count '[' == (text.take i).count ']'

/-- Whether a search that begins at a depth comes upon an operator at an index. -/
def findsAt (tag? : Char → Option τ) (d : Depth) (text : List Char) (i : Nat) : Bool :=
  text[i]?.any fun c => (operatorAt tag? (d.through (text.take i)) c).isSome

theorem operatorAt_eq_some :
    operatorAt tag? d c = some t ↔ isBracket c = false ∧ d = .zero ∧ tag? c = some t := by
  unfold operatorAt
  split
  · next hidden =>
    refine iff_of_false nofun ?_
    rintro ⟨plain, rfl, -⟩
    simp [plain] at hidden
  · next outside =>
    simp only [Bool.or_eq_true, bne_iff_ne, not_or, not_not, Bool.not_eq_true] at outside
    simp [outside]

/-- Behind an operator that is found both counts are zero. -/
theorem after_eq_zero (h : operatorAt tag? d c = some t) : d.after c = .zero := by
  obtain ⟨plain, rfl, -⟩ := operatorAt_eq_some.1 h
  exact Depth.after_of_isBracket_eq_false plain

theorem Depth.through_eq_zero_iff :
    zero.through text = zero ↔
      text.count '(' = text.count ')' ∧ text.count '[' = text.count ']' := by
  rw [through_eq_count, zero, Depth.mk.injEq]
  omega

/-- A search of a whole text comes upon the candidates. -/
theorem isCandidate_eq_findsAt (tag? : Char → Option τ) (text : List Char) :
    isCandidate tag? text = findsAt tag? .zero text := by
  funext i
  unfold isCandidate findsAt
  cases text[i]? with
  | none => rfl
  | some c =>
    rw [Bool.eq_iff_iff, Option.any_some, Option.any_some, Option.isSome_iff_exists]
    simp only [operatorAt_eq_some, Depth.through_eq_zero_iff, Bool.and_eq_true, Bool.not_eq_true',
      beq_iff_eq, Option.isSome_iff_exists, exists_and_left]
    tauto

/-- What stands behind a part of a text is found there if it is a candidate. -/
theorem operatorAt_through_eq_some :
    operatorAt tag? (Depth.zero.through l) c = some t ↔
      isCandidate tag? (l ++ c :: r) l.length ∧ tag? c = some t := by
  have finds : isCandidate tag? (l ++ c :: r) l.length =
      (operatorAt tag? (Depth.zero.through l) c).isSome := by
    rw [isCandidate_eq_findsAt]
    simp [findsAt]
  rw [finds]
  constructor
  · intro here
    exact ⟨by rw [here]; rfl, tag?_of_operatorAt here⟩
  · rintro ⟨found, tag⟩
    obtain ⟨t', here⟩ := Option.isSome_iff_exists.1 found
    rw [here, ← tag, tag?_of_operatorAt here]

/-! ### What a search finds -/

/-- The operators that a search comes upon, with the first character counted apart. -/
theorem count_findsAt_cons (n : Nat) :
    Nat.count (findsAt tag? d (c :: text) ·) (n + 1) =
      Nat.count (findsAt tag? (d.after c) text ·) n +
        if (operatorAt tag? d c).isSome then 1 else 0 := by
  rw [Nat.count_succ']
  rfl

theorem scan_cons_of_none (h : operatorAt tag? d c = none) :
    scan tag? d skip (c :: text) =
      (scan tag? (d.after c) skip text).map fun (l, t, r) => (c :: l, t, r) := by
  simp only [scan, h]

theorem scan_cons_zero (h : operatorAt tag? d c = some t) :
    scan tag? d 0 (c :: text) = some ([], t, text) := by
  simp only [scan, h, if_true]

theorem scan_cons_succ (h : operatorAt tag? d c = some t) :
    scan tag? d (skip + 1 : Nat) (c :: text) =
      (scan tag? (d.after c) skip text).map fun (l, t, r) => (c :: l, t, r) := by
  have before : ((skip + 1 : Nat) : Int) - 1 = (skip : Nat) := by omega
  simp only [scan, h, before]
  rw [if_neg (by omega)]

/-- A search finds nothing if there are no more operators than it is to pass over. -/
theorem scan_eq_none_iff :
    scan tag? d skip text = none ↔
      Nat.count (findsAt tag? d text ·) text.length ≤ skip := by
  induction text generalizing d skip with
  | nil => simp [scan]
  | cons c rest ih =>
    rw [List.length_cons, count_findsAt_cons]
    cases here : operatorAt tag? d c with
    | none =>
      rw [scan_cons_of_none here, Option.map_eq_none_iff, ih]
      simp
    | some t =>
      cases skip with
      | zero => simp [scan_cons_zero here]
      | succ skip =>
        rw [scan_cons_succ here, Option.map_eq_none_iff, ih]
        simp

/-- What is found behind a character is found there by a search of the rest. -/
theorem map_scan_eq_some_iff :
    (scan tag? d skip text).map (fun (l, t, r) => (c :: l, t, r)) = some (l, t, r) ↔
      ∃ l', l = c :: l' ∧ scan tag? d skip text = some (l', t, r) := by
  simp only [Option.map_eq_some_iff, Prod.exists, Prod.mk.injEq]
  constructor
  · rintro ⟨l', t', r', found, rfl, rfl, rfl⟩
    exact ⟨l', rfl, found⟩
  · rintro ⟨l', rfl, found⟩
    exact ⟨l', t, r, found, rfl, rfl, rfl⟩

/-- A search takes the operator that has as many others in front of it as it is to pass over. -/
theorem scan_eq_some_iff :
    scan tag? d skip text = some (l, t, r) ↔
      ∃ c, text = l ++ c :: r ∧ operatorAt tag? (d.through l) c = some t ∧
        Nat.count (findsAt tag? d text ·) l.length = skip := by
  induction text generalizing d skip l with
  | nil => simp [scan]
  | cons c rest ih =>
    -- the operator is this character or one in the rest of the text
    rcases l with _ | ⟨x, l⟩
    · cases here : operatorAt tag? d c with
      | none => simp [scan_cons_of_none here, here]
      | some t' =>
        cases skip with
        | zero => simp [scan_cons_zero here, here, and_comm]
        | succ skip =>
          rw [scan_cons_succ here, map_scan_eq_some_iff]
          simp
    · obtain rfl | differ := eq_or_ne x c
      · rw [List.length_cons, count_findsAt_cons]
        cases here : operatorAt tag? d x with
        | none =>
          rw [scan_cons_of_none here, map_scan_eq_some_iff]
          simp [ih]
        | some t' =>
          cases skip with
          | zero => simp [scan_cons_zero here]
          | succ skip =>
            rw [scan_cons_succ here, map_scan_eq_some_iff]
            simp [ih]
      · -- what is found begins with the first character
        refine iff_of_false (fun found => ?_) ?_
        · obtain ⟨o, cut, -⟩ := eq_of_scan found
          exact differ (List.cons.inj cut).1.symm
        · rintro ⟨o, cut, -⟩
          exact differ (List.cons.inj cut).1.symm

/-- The search for an operator further on is a search of the text behind the operator found. -/
theorem scan_resume (found : scan tag? d skip text = some (l, t, r)) :
    ∃ c, text = l ++ c :: r ∧ ∀ more : Nat,
      scan tag? d (skip + 1 + more : Nat) text =
        (scan tag? .zero more r).map fun (l', t', r') => (l ++ c :: l', t', r') := by
  induction text generalizing d skip l with
  | nil => simp [scan] at found
  | cons c rest ih =>
    cases here : operatorAt tag? d c with
    | none =>
      rw [scan_cons_of_none here] at found
      obtain ⟨l', rfl, inner⟩ := map_scan_eq_some_iff.1 found
      obtain ⟨x, rfl, resume⟩ := ih inner
      refine ⟨x, rfl, fun more => ?_⟩
      rw [scan_cons_of_none here, resume, Option.map_map]
      rfl
    | some t' =>
      cases skip with
      | zero =>
        have found : some ([], t', rest) = some (l, t, r) := (scan_cons_zero here).symm.trans found
        obtain ⟨rfl, rfl, rfl⟩ : [] = l ∧ t' = t ∧ rest = r := by simpa using found
        refine ⟨c, rfl, fun more => ?_⟩
        rw [Nat.add_right_comm, scan_cons_succ here, after_eq_zero here, Nat.zero_add]
        rfl
      | succ skip =>
        rw [scan_cons_succ here] at found
        obtain ⟨l', rfl, inner⟩ := map_scan_eq_some_iff.1 found
        obtain ⟨x, rfl, resume⟩ := ih inner
        refine ⟨x, rfl, fun more => ?_⟩
        rw [Nat.add_right_comm, scan_cons_succ here, resume, Option.map_map]
        rfl

/-! ### Cuts of cursors -/

theorem findSplit_eq_none_iff_count (c : Cursor) :
    c.findSplit tag? skip = none ↔ Nat.count (isCandidate tag? c.text ·) c.length ≤ skip := by
  rw [Cursor.findSplit, Option.map_eq_none_iff, scan_eq_none_iff, isCandidate_eq_findsAt]
  rfl

theorem findSplit_eq_some_iff_count (c : Cursor) (s : Split τ) :
    c.findSplit tag? skip = some s ↔
      ∃ i x, c.text[i]? = some x ∧ isCandidate tag? c.text i ∧
        Nat.count (isCandidate tag? c.text ·) i = skip ∧ tag? x = some s.tag ∧
        s.left = ⟨c.text.take i, c.start⟩ ∧
        s.right = ⟨c.text.drop (i + 1), c.start + i + 1⟩ := by
  obtain ⟨text, start⟩ := c
  obtain ⟨left, t, right⟩ := s
  rw [Cursor.findSplit, Option.map_eq_some_iff]
  constructor
  · rintro ⟨⟨l, t', r⟩, found, eq⟩
    simp only [Split.mk.injEq] at eq
    obtain ⟨rfl, rfl, rfl⟩ := eq
    obtain ⟨x, rfl, here, count⟩ := scan_eq_some_iff.1 found
    obtain ⟨candidate, tag⟩ := operatorAt_through_eq_some.1 here
    rw [← isCandidate_eq_findsAt] at count
    exact ⟨l.length, x, by simp, candidate, count, tag, by simp, by simp⟩
  · rintro ⟨i, x, at_i, candidate, count, tag, rfl, rfl⟩
    -- the text is cut at the index
    obtain ⟨inside, rfl⟩ := List.getElem?_eq_some_iff.1 at_i
    have cut : text = text.take i ++ text[i] :: text.drop (i + 1) := by simp
    have length : (text.take i).length = i := List.length_take_of_le (Nat.le_of_lt inside)
    have here : operatorAt tag? (Depth.zero.through (text.take i)) text[i] = some t := by
      refine operatorAt_through_eq_some (r := text.drop (i + 1)).2 ⟨?_, tag⟩
      rwa [← cut, length]
    refine ⟨(text.take i, t, text.drop (i + 1)), scan_eq_some_iff.2 ⟨_, cut, here, ?_⟩, ?_⟩
    · rwa [← isCandidate_eq_findsAt, length]
    · simp only [length]

/-- A search further on is one of the right part, and the two left parts are put together. -/
theorem findSplit_resume {c : Cursor} {s : Split τ} (found : c.findSplit tag? skip = some s) :
    ∃ x, c.text[s.left.length]? = some x ∧
      ∀ more : Nat, c.findSplit tag? (skip + 1 + more : Nat) =
        (s.right.findSplit tag? more).map fun s' =>
          { s' with left := ⟨s.left.text ++ x :: s'.left.text, c.start⟩ } := by
  obtain ⟨text, start⟩ := c
  obtain ⟨⟨l, t, r⟩, scanned, rfl⟩ := Option.map_eq_some_iff.1 found
  obtain ⟨x, rfl, resume⟩ := scan_resume scanned
  refine ⟨x, by simp, fun more => ?_⟩
  simp only [Cursor.findSplit, resume, Option.map_map]
  congr 1
  funext s
  simp
  omega

/-- A cursor is cut at its candidates. With `skip` of them passed over, there is no cut if there are
no more; otherwise the cut is at the candidate with `skip` others in front of it, and no character
of the text is lost. The candidates behind a cut are those of the right part searched by itself. -/
theorem findSplit_selects (tag? : Char → Option τ) (skip : Nat) (c : Cursor) :
    (c.findSplit tag? skip = none ↔
      Nat.count (isCandidate tag? c.text ·) c.length ≤ skip) ∧
    (∀ s, c.findSplit tag? skip = some s ↔
      ∃ i x, c.text[i]? = some x ∧ isCandidate tag? c.text i ∧
        Nat.count (isCandidate tag? c.text ·) i = skip ∧ tag? x = some s.tag ∧
        s.left = ⟨c.text.take i, c.start⟩ ∧ s.right = ⟨c.text.drop (i + 1), c.start + i + 1⟩) ∧
    ∀ s, c.findSplit tag? skip = some s → ∃ x, c.text[s.left.length]? = some x ∧
      ∀ more : Nat, c.findSplit tag? (skip + 1 + more : Nat) =
        (s.right.findSplit tag? more).map fun s' =>
          { s' with left := ⟨s.left.text ++ x :: s'.left.text, c.start⟩ } :=
  ⟨findSplit_eq_none_iff_count c, findSplit_eq_some_iff_count c, fun _ => findSplit_resume⟩

/-- A stray closing parenthesis hides the first operator. In front of the second one the counts are
even again, and the third is found behind that. -/
theorem findSplit_selects_stray :
    let c : Cursor := ⟨[')', '+', '(', '+', 'a', '-', 'b'], 2⟩
    c.findSplit (BinaryOperator.among? BinaryOperator.additive) 0 =
        some ⟨⟨[')', '+', '('], 2⟩, .add, ⟨['a', '-', 'b'], 6⟩⟩ ∧
      c.findSplit (BinaryOperator.among? BinaryOperator.additive) 1 =
        some ⟨⟨[')', '+', '(', '+', 'a'], 2⟩, .subtract, ⟨['b'], 8⟩⟩ := by
  intro c
  obtain ⟨-, found, resume⟩ :=
    findSplit_selects (BinaryOperator.among? BinaryOperator.additive) 0 c
  have first := (found ⟨⟨[')', '+', '('], 2⟩, .add, ⟨['a', '-', 'b'], 6⟩⟩).2
    ⟨3, '+', rfl, by decide, by decide, by decide, rfl, rfl⟩
  obtain ⟨x, at_plus, next⟩ := resume _ first
  obtain rfl : '+' = x := Option.some.inj at_plus
  exact ⟨first, (next 0).trans rfl⟩

end Formula
