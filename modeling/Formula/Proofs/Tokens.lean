import Formula.Proofs.Blank
import Formula.Token

/-!
# Tokens of a text

A text is read from left to right as blanks, marks and names (`text_induction`), so the tokens of
two texts one after the other are those of both unless a name goes on across the border
(`Apart`, `lexemes_append`). Marks can be found again: where a mark stands among the tokens, the
text can be cut at its character (`exists_of_tokens_eq`).
-/

namespace Formula

variable {c : Char} {start : Nat} {text l r u v w name : List Char} {before behind : List Token}

/-! ### Marks and names -/

/-- A character that is a token by itself. -/
def IsMark (c : Char) : Prop := isNameChar c = false ∧ isBlank c = false

instance (c : Char) : Decidable (IsMark c) := instDecidableAnd

theorem IsMark.isNameChar_eq_false (h : IsMark c) : ∀ x ∈ [c], isNameChar x = false := by
  intro x mem
  rw [List.mem_singleton.1 mem, h.1]

theorem BinaryOperator.isMark_symbol (op : BinaryOperator) : IsMark op.symbol := by
  cases op <;> decide

theorem Sign.isMark_symbol (sign : Sign) : IsMark sign.symbol := by
  cases sign <;> decide

theorem isMark_transposeMark : IsMark transposeMark := by
  decide

/-- No name goes on at the front of the text. -/
def StartsToken (text : List Char) : Prop := ∀ c ∈ text.head?, isNameChar c = false

theorem startsToken_nil : StartsToken [] := by
  intro c mem
  cases mem

theorem startsToken_cons : StartsToken (c :: text) ↔ isNameChar c = false := by
  simp [StartsToken]

theorem IsMark.startsToken (h : IsMark c) : StartsToken (c :: text) := startsToken_cons.2 h.1

theorem Blank.isNameChar_eq_false (h : Blank w) : ∀ c ∈ w, isNameChar c = false := by
  intro c mem
  rw [← Bool.not_eq_true]
  intro isName
  have solid := isBlank_eq_false_of_isNameChar isName
  simp [h c mem] at solid

theorem Blank.startsToken (h : Blank w) : StartsToken w :=
  fun c mem => h.isNameChar_eq_false c (List.mem_of_mem_head? mem)

theorem StartsToken.of_append (h : StartsToken (l ++ r)) : StartsToken l := by
  intro c mem
  refine h c ?_
  rw [List.head?_append, Option.mem_def.1 mem]
  rfl

/-- No name goes on at the end of the text. -/
def EndsToken (text : List Char) : Prop := ∀ c ∈ text.getLast?, isNameChar c = false

theorem EndsToken.of_append (h : EndsToken (l ++ r)) : EndsToken r := by
  intro c mem
  refine h c ?_
  rw [List.getLast?_append, Option.mem_def.1 mem]
  rfl

theorem EndsToken.append (hl : EndsToken l) (hr : EndsToken r) : EndsToken (l ++ r) := by
  intro c mem
  cases last : r.getLast? with
  | none =>
    obtain rfl := List.getLast?_eq_none_iff.1 last
    exact hl c (by simpa using mem)
  | some x =>
    rw [List.getLast?_append, last] at mem
    exact hr c (last ▸ mem)

theorem IsName.not_endsToken (h : IsName name) : ¬ EndsToken name := by
  obtain ⟨rest, c, rfl⟩ := List.eq_nil_or_concat' name |>.resolve_left h.1
  intro ends
  simpa [h.2 c (by simp)] using ends c (by simp)

theorem IsName.not_startsToken (h : IsName name) : ¬ StartsToken (name ++ r) := by
  obtain ⟨c, rest, rfl⟩ := List.exists_cons_of_ne_nil h.1
  intro starts
  simpa [h.2 c List.mem_cons_self] using starts c rfl

/-- No name goes on from the first text to the second. -/
def Apart (l r : List Char) : Prop := EndsToken l ∨ StartsToken r

/-- Behind a name that is read as far as possible the text begins with another token. -/
theorem exists_name_append (h : isNameChar c = true) (rest : List Char) :
    ∃ name behind, c :: rest = name ++ behind ∧ IsName name ∧ StartsToken behind := by
  refine ⟨c :: rest.takeWhile isNameChar, rest.dropWhile isNameChar, ?_, ⟨by simp, ?_⟩, ?_⟩
  · rw [List.cons_append, List.takeWhile_append_dropWhile]
  · rintro x (_ | ⟨_, mem⟩)
    · exact h
    · exact List.all_eq_true.1 List.all_takeWhile x mem
  · intro x mem
    have := List.head?_dropWhile_not isNameChar rest
    rw [Option.mem_def] at mem
    simpa [mem] using this

/-- Induction on a text as it is read: a blank, a mark or a whole name comes first. -/
theorem text_induction {P : List Char → Prop} (nil : P [])
    (blank : ∀ c rest, isBlank c = true → P rest → P (c :: rest))
    (mark : ∀ c rest, IsMark c → P rest → P (c :: rest))
    (name : ∀ name rest, IsName name → StartsToken rest → P rest → P (name ++ rest)) :
    ∀ text, P text
  | [] => nil
  | c :: rest => by
    by_cases isName : isNameChar c = true
    · obtain ⟨n, behind, eq, hn, starts⟩ := exists_name_append isName rest
      have shorter : behind.length < (c :: rest).length := by
        have pos := List.length_pos_iff.2 hn.1
        rw [eq, List.length_append]
        omega
      rw [eq]
      exact name n behind hn starts (text_induction nil blank mark name behind)
    · have ih := text_induction nil blank mark name rest
      by_cases isBlank : isBlank c = true
      · exact blank c rest isBlank ih
      · exact mark c rest ⟨by simpa using isName, by simpa using isBlank⟩ ih
termination_by text => text.length
decreasing_by
  · exact shorter
  · exact Nat.lt_succ_self rest.length

/-! ### Reading a text -/

@[simp] theorem lexemes_nil : lexemes start [] = [] := by
  rw [lexemes]

theorem lexemes_cons_blank (h : isBlank c = true) (rest : List Char) :
    lexemes start (c :: rest) = lexemes (start + 1) rest := by
  have no_name : ¬ isNameChar c = true := fun isName => by
    simp [isBlank_eq_false_of_isNameChar isName] at h
  rw [lexemes, if_neg no_name, if_pos h]

theorem lexemes_cons_mark (h : IsMark c) (rest : List Char) :
    lexemes start (c :: rest) = ⟨.mark c, start⟩ :: lexemes (start + 1) rest := by
  rw [lexemes, if_neg (by simp [h.1]), if_neg (by simp [h.2])]

theorem lexemes_name_append (h : IsName name) (starts : StartsToken r) :
    lexemes start (name ++ r) = ⟨.name name, start⟩ :: lexemes (start + name.length) r := by
  obtain ⟨ne, chars⟩ := h
  obtain ⟨c, rest, rfl⟩ := List.exists_cons_of_ne_nil ne
  have rest_chars : ∀ x ∈ rest, isNameChar x = true := fun x mem =>
    chars x (List.mem_cons_of_mem c mem)
  have taken : (rest ++ r).takeWhile isNameChar = rest := by
    rw [List.takeWhile_append_of_pos rest_chars]
    cases r with
    | nil => simp
    | cons x r => simp [startsToken_cons.1 starts]
  have dropped : (rest ++ r).dropWhile isNameChar = r := by
    rw [List.dropWhile_append_of_pos rest_chars]
    cases r with
    | nil => rfl
    | cons x r => simp [startsToken_cons.1 starts]
  rw [List.cons_append, lexemes, if_pos (chars c List.mem_cons_self)]
  simp only [taken, dropped]

theorem lexemes_blank_append (h : Blank v) (text : List Char) :
    lexemes start (v ++ text) = lexemes (start + v.length) text := by
  induction v generalizing start with
  | nil => rfl
  | cons c v ih =>
    rw [List.cons_append, lexemes_cons_blank (h c List.mem_cons_self),
      ih fun x mem => h x (List.mem_cons_of_mem c mem), List.length_cons]
    congr 1
    omega

/-- Where no name goes on across the border, the parts of a text are read one after the other. -/
theorem lexemes_append (h : Apart l r) :
    ∀ start, lexemes start (l ++ r) = lexemes start l ++ lexemes (start + l.length) r := by
  induction l using text_induction with
  | nil => simp
  | blank c rest isBlank ih =>
    intro start
    rw [List.cons_append, lexemes_cons_blank isBlank, lexemes_cons_blank isBlank,
      ih (h.imp_left (EndsToken.of_append (l := [c]))), List.length_cons, Nat.add_right_comm,
      Nat.add_assoc]
  | mark c rest isMark ih =>
    intro start
    rw [List.cons_append, lexemes_cons_mark isMark, lexemes_cons_mark isMark,
      ih (h.imp_left (EndsToken.of_append (l := [c]))), List.cons_append, List.length_cons,
      Nat.add_right_comm, Nat.add_assoc]
  | name n rest isName starts ih =>
    intro start
    -- the name ends with the first text, if not before
    have starts_both : StartsToken (rest ++ r) := by
      cases rest with
      | nil => exact h.resolve_left (by simpa using isName.not_endsToken)
      | cons => exact starts
    rw [List.append_assoc, lexemes_name_append isName starts_both,
      lexemes_name_append isName starts, ih (h.imp_left EndsToken.of_append), List.cons_append,
      List.length_append, Nat.add_assoc]

theorem lexemes_append_mark (h : IsMark c) (l r : List Char) (start : Nat) :
    lexemes start (l ++ c :: r) =
      lexemes start l ++ ⟨.mark c, start + l.length⟩ :: lexemes (start + l.length + 1) r := by
  rw [lexemes_append (.inr h.startsToken), lexemes_cons_mark h]

theorem lexemes_of_blank (h : Blank w) : lexemes start w = [] := by
  rw [← List.append_nil w, lexemes_blank_append h, lexemes_nil]

theorem lexemes_append_blank (h : Blank w) (text : List Char) :
    lexemes start (text ++ w) = lexemes start text := by
  rw [lexemes_append (.inr h.startsToken), lexemes_of_blank h, List.append_nil]

/-! ### Tokens without offsets -/

theorem map_token_lexemes (text : List Char) :
    ∀ start, (lexemes start text).map (·.token) = tokens text := by
  suffices same : ∀ start start',
      (lexemes start text).map (·.token) = (lexemes start' text).map (·.token) from
    fun start => same start 0
  induction text using text_induction with
  | nil => simp
  | blank c rest isBlank ih =>
    intro start start'
    rw [lexemes_cons_blank isBlank, lexemes_cons_blank isBlank, ih]
  | mark c rest isMark ih =>
    intro start start'
    rw [lexemes_cons_mark isMark, lexemes_cons_mark isMark, List.map_cons, List.map_cons, ih]
  | name n rest isName starts ih =>
    intro start start'
    rw [lexemes_name_append isName starts, lexemes_name_append isName starts, List.map_cons,
      List.map_cons, ih]

theorem tokens_nil : tokens [] = [] := by
  rw [tokens, lexemes_nil, List.map_nil]

theorem tokens_append_mark (h : IsMark c) (l r : List Char) :
    tokens (l ++ c :: r) = tokens l ++ .mark c :: tokens r := by
  rw [tokens, lexemes_append_mark h, List.map_append, List.map_cons, map_token_lexemes,
    map_token_lexemes]

theorem tokens_cons_mark (h : IsMark c) (r : List Char) :
    tokens (c :: r) = .mark c :: tokens r := by
  rw [tokens, lexemes_cons_mark h, List.map_cons, map_token_lexemes]

theorem tokens_cons_blank (h : isBlank c = true) (r : List Char) : tokens (c :: r) = tokens r := by
  rw [tokens, lexemes_cons_blank h, map_token_lexemes]

theorem tokens_name_append (h : IsName name) (starts : StartsToken r) :
    tokens (name ++ r) = .name name :: tokens r := by
  rw [tokens, lexemes_name_append h starts, List.map_cons, map_token_lexemes]

theorem tokens_blank_append (h : Blank v) (text : List Char) :
    tokens (v ++ text) = tokens text := by
  rw [tokens, lexemes_blank_append h, map_token_lexemes]

theorem tokens_append_blank (h : Blank w) (text : List Char) :
    tokens (text ++ w) = tokens text := by
  rw [tokens, lexemes_append_blank h, map_token_lexemes]

theorem IsName.tokens_eq (h : IsName name) : tokens name = [.name name] := by
  rw [← List.append_nil name, tokens_name_append h startsToken_nil, List.append_nil, tokens_nil]

theorem tokens_eq_nil_iff : tokens text = [] ↔ Blank text := by
  constructor
  · intro h
    induction text using text_induction with
    | nil => exact blank_nil
    | blank c rest isBlank ih =>
      rw [tokens_cons_blank isBlank] at h
      exact blank_cons.2 ⟨isBlank, ih h⟩
    | mark c rest isMark => simp [tokens_cons_mark isMark] at h
    | name n rest isName starts => simp [tokens_name_append isName starts] at h
  · intro h
    rw [tokens, lexemes_of_blank h, List.map_nil]

/-! ### Finding tokens again -/

/-- A text can be cut at each mark among its tokens. -/
theorem exists_of_tokens_eq (h : tokens text = before ++ .mark c :: behind) :
    IsMark c ∧ ∃ l r, text = l ++ c :: r ∧ tokens l = before ∧ tokens r = behind := by
  induction text using text_induction generalizing before with
  | nil => simp [tokens_nil] at h
  | blank x rest isBlank ih =>
    rw [tokens_cons_blank isBlank] at h
    obtain ⟨isMark, l, r, rfl, rfl, rfl⟩ := ih h
    exact ⟨isMark, x :: l, r, rfl, tokens_cons_blank isBlank l, rfl⟩
  | mark x rest isMark ih =>
    rw [tokens_cons_mark isMark] at h
    cases before with
    | nil =>
      obtain ⟨same, rfl⟩ := List.cons.inj h
      obtain rfl := Token.mark.inj same
      exact ⟨isMark, [], rest, rfl, tokens_nil, rfl⟩
    | cons t before =>
      obtain ⟨rfl, tail⟩ := List.cons.inj h
      obtain ⟨isMark_c, l, r, rfl, rfl, rfl⟩ := ih tail
      exact ⟨isMark_c, x :: l, r, rfl, tokens_cons_mark isMark l, rfl⟩
  | name n rest isName starts ih =>
    rw [tokens_name_append isName starts] at h
    cases before with
    | nil =>
      obtain ⟨same, -⟩ := List.cons.inj h
      cases same
    | cons t before =>
      obtain ⟨rfl, tail⟩ := List.cons.inj h
      obtain ⟨isMark_c, l, r, rfl, rfl, rfl⟩ := ih tail
      exact ⟨isMark_c, n ++ l, r, by simp, tokens_name_append isName starts.of_append, rfl⟩

/-- A core with one name for a token is that name. -/
theorem Core.eq_of_tokens_eq (core : Core text) (h : tokens text = [.name name]) : text = name := by
  induction text using text_induction with
  | nil => exact absurd rfl core.ne_nil
  | blank x rest isBlank =>
    have solid := core.head x rfl
    simp [isBlank] at solid
  | mark x rest isMark => simp [tokens_cons_mark isMark] at h
  | name n rest isName starts =>
    rw [tokens_name_append isName starts] at h
    obtain ⟨same, tail⟩ := List.cons.inj h
    obtain rfl := core.eq_nil_of_blank_right (tokens_eq_nil_iff.1 tail)
    rw [List.append_nil, Token.name.inj same]

end Formula
