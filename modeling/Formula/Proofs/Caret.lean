import Formula.Location
import Formula.Proofs.Lines

/-!
# Carets

The line and the column of an offset are counted in the text in front of it, while a snippet cuts
the whole source into lines again and puts its caret under a column. The two agree
(`Location.ofOffset_agrees`): the text in front of an offset is a number of terminated lines and a
last line (`Location.CutAt`), the line that the snippet shows begins with that last line, and the
character at the offset is the one behind it.
-/

namespace Formula

namespace Location

open Text (lines terminated)

variable {source : String} {offset offset' : Int} {ls : List (List Char)}
  {last behind text : List Char} {l : Location} {c : Char} {n : Nat}

/-- An offset brought inside a source. -/
def inside (source : String) (offset : Int) : Int := max 0 (min offset source.length)

/-! ### Where an offset cuts a source -/

/-- The source is cut at the offset: lines with their line feeds and a last line stand in front. -/
structure CutAt (source : String) (offset : Int) (ls : List (List Char)) (last behind : List Char) :
    Prop where
  text : source.toList = terminated ls ++ last ++ behind
  feeds : ∀ l ∈ ls, '\n' ∉ l
  last_feed : '\n' ∉ last
  length : ((terminated ls ++ last).length : Int) = inside source offset

theorem exists_cutAt (source : String) (offset : Int) :
    ∃ ls last behind, CutAt source offset ls last behind := by
  obtain ⟨ls, last, eq, feeds, last_feed⟩ :=
    Text.exists_terminated_append (source.toList.take (inside source offset).toNat)
  refine ⟨ls, last, source.toList.drop (inside source offset).toNat, ?_, feeds, last_feed, ?_⟩
  · rw [← eq, List.take_append_drop]
  · rw [← eq, List.length_take, String.length_toList, inside]
    omega

namespace CutAt

/-- Line and column are found in front of the offset. -/
theorem ofOffset_eq (h : CutAt source offset ls last behind) :
    ofOffset source offset =
      ⟨(ls.length + 1 : Nat), (last.length + 1 : Nat), (terminated ls ++ last).length⟩ := by
  have taken : min offset.toNat source.toList.length = (terminated ls ++ last).length := by
    have := h.length
    rw [inside] at this
    rw [String.length_toList]
    omega
  have lines_before : (terminated ls ++ last).count '\n' = ls.length := by
    rw [List.count_append, Text.count_terminated h.feeds, List.count_eq_zero.2 h.last_feed,
      Nat.add_zero]
  -- read backwards, the last line ends at the line feed of the line in front of it
  have last_before : (terminated ls ++ last).reverse.takeWhile (· != '\n') = last.reverse := by
    have all : ∀ c ∈ last.reverse, (c != '\n') = true := by
      intro c mem
      simpa using ne_of_mem_of_not_mem (List.mem_reverse.1 mem) h.last_feed
    rw [List.reverse_append, List.takeWhile_append_of_pos all]
    rcases List.eq_nil_or_concat' ls with rfl | ⟨ls, l, rfl⟩ <;> simp
  have before : source.toList.take (min offset.toNat source.toList.length) =
      terminated ls ++ last := by
    rw [taken, h.text, List.take_left]
  have found : ofOffset source offset = ⟨_, _, _⟩ := rfl
  rw [found, before, taken, lines_before, last_before, List.length_reverse]
  rfl

/-- The line of the offset begins with what of it stands in front of the offset. -/
theorem lines_eq (h : CutAt source offset ls last behind) :
    lines source.toList = ls ++ (last ++ (lines behind).headD []) :: (lines behind).tail := by
  rw [h.text, List.append_assoc, Text.lines_terminated_append h.feeds,
    Text.lines_append_of_notMem h.last_feed]

/-- The line that a location names. -/
theorem getElem?_lines (h : CutAt source offset ls last behind) :
    (lines source.toList)[ls.length]? = some (last ++ (lines behind).headD []) := by
  rw [h.lines_eq]
  simp

/-- The character at the offset is the first one behind the cut. -/
theorem getElem?_offset (h : CutAt source offset ls last behind) :
    source.toList[(terminated ls ++ last).length]? = behind.head? := by
  rw [h.text, List.getElem?_append_right (Nat.le_refl _), Nat.sub_self, List.head?_eq_getElem?]

/-- A later offset is on a later line, or further on in the same line. -/
theorem exists_later (h : CutAt source offset ls last behind)
    (lt : inside source offset < inside source offset') :
    ∃ ls' last' behind', CutAt source offset' ls' last' behind' ∧
      (ls.length < ls'.length ∨ ls.length = ls'.length ∧ last.length < last'.length) := by
  -- what lies between the offsets is again a number of terminated lines and a last line
  obtain ⟨between, rest, rfl, length⟩ : ∃ between rest, behind = between ++ rest ∧
      ((terminated ls ++ last ++ between).length : Int) = inside source offset' := by
    refine ⟨behind.take (inside source offset' - inside source offset).toNat, _,
      (List.take_append_drop _ behind).symm, ?_⟩
    have whole := congrArg List.length h.text
    have here := h.length
    rw [String.length_toList] at whole
    simp only [inside, List.length_append, List.length_take] at *
    omega
  obtain ⟨ms, end_line, rfl, feeds, end_feed⟩ := Text.exists_terminated_append between
  cases ms with
  | nil =>
    have line : '\n' ∉ last ++ end_line := by simp [h.last_feed, end_feed]
    refine ⟨ls, last ++ end_line, rest, ⟨by simp [h.text], h.feeds, line, ?_⟩, .inr ⟨rfl, ?_⟩⟩
    · simpa [Nat.add_assoc] using length
    · have here := h.length
      simp only [terminated, List.flatMap_nil, List.nil_append, List.length_append] at *
      omega
  | cons m ms =>
    obtain ⟨first, others⟩ := List.forall_mem_cons.1 feeds
    have line : '\n' ∉ last ++ m := by simp [h.last_feed, first]
    refine ⟨ls ++ (last ++ m) :: ms, end_line, rest, ⟨by simp [h.text], ?_, end_feed, ?_⟩,
      .inl (by simp)⟩
    · exact List.forall_mem_append.2 ⟨h.feeds, List.forall_mem_cons.2 ⟨line, others⟩⟩
    · simpa [Nat.add_assoc] using length

end CutAt

/-! ### Snippets -/

theorem notMem_toDigits (n : Nat) (h : c.isDigit = false) : c ∉ Nat.toDigits 10 n := by
  intro mem
  have digit : c.isDigit = true := Nat.isDigit_of_mem_toDigits (by decide) (by decide) mem
  rw [h] at digit
  cases digit

/-- A number is written in digits. -/
theorem notMem_repr (n : Nat) (h : c.isDigit = false) : c ∉ (n : Int).repr.toList := by
  have digits : (n : Int).repr.toList = Nat.toDigits 10 n := Nat.toList_repr
  rw [digits]
  exact notMem_toDigits n h

/-- The lines of a snippet that shows a text. -/
def snippetLines (l : Location) (text : List Char) : List (List Char) :=
  let number := l.line.repr.toList
  let gutter := List.replicate number.length ' '
  [gutter ++ [' ', '|'], number ++ [' ', '|', ' '] ++ text,
    gutter ++ [' ', '|', ' '] ++ List.replicate (l.column - 1).toNat ' ' ++ ['^']]

theorem snippet?_eq (shown : l.lineOf? source = some text) :
    l.snippet? source = some (String.ofList (terminated (l.snippetLines text))) := by
  rw [snippet?, shown, Option.map_some, Option.some.injEq, ← String.toList_inj]
  simp [snippetLines, String.length_toList]

/-- Every text that a snippet shows is one line of it. -/
theorem feeds_snippetLines (line : l.line = (n : Nat)) (feed : '\n' ∉ text) :
    ∀ m ∈ l.snippetLines text, '\n' ∉ m := by
  have number : '\n' ∉ l.line.repr.toList := line ▸ notMem_repr n (by decide)
  simp [snippetLines, number, feed, List.mem_replicate]

namespace CutAt

/-- The line that the snippet of an offset shows. -/
theorem lineOf?_eq (h : CutAt source offset ls last behind) :
    (ofOffset source offset).lineOf? source = some (last ++ (lines behind).headD []) := by
  have number : (((ls.length + 1 : Nat) : Int) - 1) = (ls.length : Nat) := by omega
  have le : ((ls.length + 1 : Nat) : Int) ≤ (lines source.toList).length := by
    rw [h.lines_eq, List.length_append, List.length_cons]
    omega
  rw [lineOf?, h.ofOffset_eq, ← h.getElem?_lines]
  dsimp only
  rw [if_pos le, number, Text.item?_natCast]

theorem feeds_snippet (h : CutAt source offset ls last behind) :
    ∀ m ∈ (ofOffset source offset).snippetLines (last ++ (lines behind).headD []), '\n' ∉ m := by
  refine feeds_snippetLines (n := ls.length + 1) ?_ ?_
  · rw [h.ofOffset_eq]
  · exact Text.notMem_of_mem_lines (List.mem_of_getElem? h.getElem?_lines)

end CutAt

/-- The location of an offset has a snippet, and it consists of its three lines. -/
theorem exists_snippet (source : String) (offset : Int) :
    ∃ text, (ofOffset source offset).snippet? source =
        some (String.ofList (terminated ((ofOffset source offset).snippetLines text))) ∧
      ∀ m ∈ (ofOffset source offset).snippetLines text, '\n' ∉ m := by
  obtain ⟨ls, last, behind, h⟩ := exists_cutAt source offset
  exact ⟨_, snippet?_eq h.lineOf?_eq, h.feeds_snippet⟩

/-! ### Agreement -/

/-- The location of an offset: line and column lie inside the source, and what stands in front of
them adds up to the offset. -/
structure Names (source : String) (offset : Int) (l : Location) : Prop where
  offset_eq : l.offset = inside source offset
  line_pos : 1 ≤ l.line
  line_le : l.line ≤ (lines source.toList).length
  column_pos : 1 ≤ l.column
  column_le : ∀ shown, (lines source.toList)[(l.line - 1).toNat]? = some shown →
    l.column ≤ shown.length + 1
  sum_eq : ((((lines source.toList).take (l.line - 1).toNat).map fun t => t.length + 1).sum : Nat) +
    (l.column - 1) = inside source offset

/-- On a line further up, or further left on the same line. -/
def Precedes (l l' : Location) : Prop :=
  l.line < l'.line ∨ l.line = l'.line ∧ l.column < l'.column

/-- The line of a location behind a margin, and under it a line with a caret behind some text: the
caret is below the character at the offset, or behind the line if that has no character there. -/
structure Underlines (source : String) (l : Location) (margin shown front : List Char) : Prop where
  shown_eq : (lines source.toList)[(l.line - 1).toNat]? = some shown
  single : '^' ∉ front
  column_eq : (front.length : Int) = margin.length + (l.column - 1)
  below : ∀ c, source.toList[l.offset.toNat]? = some c → c ≠ '\n' →
    (margin ++ shown)[front.length]? = some c
  behind : (∀ c, source.toList[l.offset.toNat]? = some c → c = '\n') →
    front.length = (margin ++ shown).length

namespace CutAt

theorem names (h : CutAt source offset ls last behind) :
    (ofOffset source offset).Names source offset := by
  have line : (((ls.length + 1 : Nat) : Int) - 1).toNat = ls.length := by omega
  rw [h.ofOffset_eq]
  refine ⟨h.length, ?_, ?_, ?_, ?_, ?_⟩ <;> dsimp only
  · omega
  · rw [h.lines_eq, List.length_append, List.length_cons]
    omega
  · omega
  · intro shown eq
    rw [line, h.getElem?_lines] at eq
    obtain rfl := Option.some.inj eq
    rw [List.length_append]
    omega
  · have total := h.length
    rw [List.length_append, Text.length_terminated] at total
    rw [line, h.lines_eq, List.take_left, ← total]
    omega

/-- The character at the offset is the one behind the last line in front of it. -/
theorem underlines (h : CutAt source offset ls last behind) {margin front : List Char}
    (single : '^' ∉ front) (column : front.length = margin.length + last.length) :
    (ofOffset source offset).Underlines source margin (last ++ (lines behind).headD []) front := by
  have line : (((ls.length + 1 : Nat) : Int) - 1).toNat = ls.length := by omega
  rw [h.ofOffset_eq]
  refine ⟨?_, single, ?_, ?_, ?_⟩ <;> dsimp only
  · rw [line, h.getElem?_lines]
  · rw [column]
    omega
  · intro c here ne
    rw [Int.toNat_natCast, h.getElem?_offset] at here
    obtain ⟨rest, rfl⟩ := List.head?_eq_some_iff.1 here
    rw [Text.lines_cons_of_ne ne, ← List.append_assoc, column, ← List.length_append,
      List.getElem?_append_right (Nat.le_refl _)]
    simp
  · intro feed
    rw [Int.toNat_natCast, h.getElem?_offset] at feed
    -- nothing of the line is left behind the offset
    have rest : (lines behind).headD [] = [] := by
      cases behind with
      | nil => rfl
      | cons c rest =>
        obtain rfl := feed c rfl
        rw [lines, if_pos rfl]
        rfl
    rw [rest, List.append_nil, List.length_append, column]

end CutAt

/-- The location of every offset names it, later offsets have later locations, and the snippet of
the location has three lines with the caret at the offset. -/
theorem ofOffset_agrees (source : String) (offset : Int) :
    (ofOffset source offset).Names source offset ∧
      (∀ offset', inside source offset < inside source offset' →
        (ofOffset source offset).Precedes (ofOffset source offset')) ∧
      ∃ snippet first margin shown front, (ofOffset source offset).snippet? source = some snippet ∧
        lines snippet.toList = [first, margin ++ shown, front ++ ['^'], []] ∧
        (ofOffset source offset).Underlines source margin shown front := by
  obtain ⟨ls, last, behind, h⟩ := exists_cutAt source offset
  refine ⟨h.names, ?_, ?_⟩
  · intro offset' lt
    obtain ⟨ls', last', behind', h', later⟩ := h.exists_later lt
    rw [h.ofOffset_eq, h'.ofOffset_eq, Precedes]
    dsimp only
    omega
  · have cut := Text.lines_terminated h.feeds_snippet
    rw [← String.toList_ofList (l := terminated _)] at cut
    refine ⟨_, _, _, _, _, snippet?_eq h.lineOf?_eq, cut, h.underlines ?_ ?_⟩
    · simp [List.mem_replicate]
    · rw [h.ofOffset_eq]
      simp only [List.length_append, List.length_replicate, List.length_cons, List.length_nil]
      omega

/-- The last character of two lines, an offset in front of them and one far behind them. -/
theorem ofOffset_agrees_two_lines :
    inside "a +\nb #" (-1) = 0 ∧ inside "a +\nb #" 99 = 7 ∧
      (ofOffset "a +\nb #" 6).Names "a +\nb #" 6 ∧
      (ofOffset "a +\nb #" (-1)).Precedes (ofOffset "a +\nb #" 6) ∧
      (ofOffset "a +\nb #" 6).Precedes (ofOffset "a +\nb #" 99) ∧
      (ofOffset "a +\nb #" 6).snippet? "a +\nb #" = some "  |\n2 | b #\n  |   ^\n" := by
  refine ⟨by decide, by decide, (ofOffset_agrees _ _).1, ?_, ?_, by decide +kernel⟩
  · exact (ofOffset_agrees "a +\nb #" (-1)).2.1 6 (by decide)
  · exact (ofOffset_agrees "a +\nb #" 6).2.1 99 (by decide)

end Location

end Formula
