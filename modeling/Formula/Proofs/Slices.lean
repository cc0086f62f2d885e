import Formula.Proofs.Run
import Formula.Report

/-!
# Slices of the input

Every cursor that the parser shows is a slice of the input, at the offset where the slice stands:
those of the visits, those that a level leaves to be parsed, and those in the trail of a failure
(`shows_slices_parse`). The trail is nested. Each of its cursors is a part of the one in front of
it, and the position of the failure lies in the last of them and so in all (`TrailIn`).

The parser cuts with natural bounds and cannot go wrong. That the same cuts with signed bounds are
never refused is said by `Cursor.IsSliceOf`.
-/

namespace Formula

open BinaryOperator (symbol)

variable {level next : Level} {c part middle whole pending : Cursor} {op : BinaryOperator}
  {text : List Char} {rest tail : List Piece} {position : Nat} {frame : Frame} {trail : List Frame}

/-! ### Parts of a cursor -/

namespace Cursor

/-- A stretch of a cursor, at the offset where it stands there. -/
def PartOf (part whole : Cursor) : Prop :=
  ∃ l r, whole.text = l ++ part.text ++ r ∧ part.start = whole.start + l.length

theorem PartOf.trans (h : part.PartOf middle) (h' : middle.PartOf whole) : part.PartOf whole := by
  obtain ⟨l, r, text, start⟩ := h
  obtain ⟨l', r', text', start'⟩ := h'
  refine ⟨l' ++ l, r ++ r', by simp [text', text], ?_⟩
  rw [start, start', List.length_append, Nat.add_assoc]

theorem PartOf.start_le (h : part.PartOf whole) : whole.start ≤ part.start := by
  obtain ⟨l, -, -, start⟩ := h
  omega

theorem PartOf.stop_le (h : part.PartOf whole) : part.stop ≤ whole.stop := by
  obtain ⟨l, r, text, start⟩ := h
  simp only [stop, length, text, start, List.length_append]
  omega

theorem partOf_trim (c : Cursor) : c.trim.PartOf c := by
  by_cases blank : Blank c.text
  · rw [trim_of_blank blank]
    exact ⟨c.text, [], by simp, rfl⟩
  · obtain ⟨v, u, w, -, -, -, text, trimmed⟩ := exists_trim blank
    rw [trimmed]
    exact ⟨v, w, text, rfl⟩

/-- Neither the first character nor the last is a blank. -/
structure Trimmed (c : Cursor) : Prop where
  first : ∀ x ∈ c.first?, isBlank x = false
  last : ∀ x ∈ c.last?, isBlank x = false

theorem trimmed_trim (c : Cursor) : c.trim.Trimmed := by
  by_cases blank : Blank c.text
  · rw [trim_of_blank blank]
    exact ⟨nofun, nofun⟩
  · have core := core_trim blank
    exact ⟨core.head, core.last⟩

/-- A cut with natural bounds is never refused. -/
theorem slice_natCast (c : Cursor) (n m : Nat) :
    c.slice n m = .ok ⟨(c.text.take m).drop n, c.start + n⟩ := by
  rw [slice, Text.slice_natCast]
  rfl

/-- A part is what a cut of the whole gives. -/
theorem PartOf.exists_slice (h : part.PartOf whole) :
    ∃ n m : Nat, whole.slice n m = .ok part ∧ whole.start + n = part.start ∧
      whole.start + m = part.stop := by
  obtain ⟨slice, start⟩ := part
  obtain ⟨l, r, text, rfl⟩ := h
  refine ⟨l.length, l.length + slice.length, ?_, rfl, (Nat.add_assoc _ _ _).symm⟩
  rw [slice_natCast, text, ← List.length_append, List.take_left, List.drop_left]

/-- The cursor is the stretch of a text between its offsets. The cut of the text at these offsets
gives the cursor and is not refused. -/
structure IsSliceOf (text : String) (c : Cursor) : Prop where
  start_nonneg : (0 : Int) ≤ c.start
  stop_le : c.stop ≤ text.length
  text_eq : Text.slice text.toList c.start c.stop = c.text
  not_refused : (ofString text).slice c.start c.stop = .ok c

theorem PartOf.isSliceOf {text : String} (h : c.PartOf (ofString text)) : c.IsSliceOf text := by
  obtain ⟨n, m, cut, start, stop⟩ := h.exists_slice
  -- the text begins at the offset zero, so the bounds of the cut are the offsets of the cursor
  obtain rfl : n = c.start := (Nat.zero_add n).symm.trans start
  obtain rfl : m = c.stop := (Nat.zero_add m).symm.trans stop
  refine ⟨Int.natCast_nonneg _, ?_, ?_, cut⟩
  · have whole : (ofString text).stop = text.length := by
      rw [← String.length_toList]
      exact Nat.zero_add _
    rw [← whole]
    exact h.stop_le
  · rw [slice_natCast] at cut
    rw [Text.slice_natCast]
    exact congrArg Cursor.text (Except.ok.inj cut)

end Cursor

/-! ### What is left to be parsed -/

/-- What is left of a chain is the end of a cursor. -/
def Remains (whole pending : Cursor) (tail : List Piece) : Prop :=
  ∃ before, whole.text = before ++ joined symbol pending.text tail ∧
    pending.start = whole.start + before.length

theorem Remains.partOf (h : Remains whole pending tail) : pending.PartOf whole := by
  obtain ⟨before, eq, start⟩ := h
  refine ⟨before, tail.flatMap fun p => p.1.symbol :: p.2, ?_, start⟩
  rw [eq, joined, List.append_assoc]

theorem Remains.beyond (h : Remains whole pending ((op, text) :: rest)) :
    Remains whole (pending.beyond text) rest := by
  obtain ⟨before, eq, start⟩ := h
  refine ⟨before ++ pending.text ++ [op.symbol], ?_, Cursor.start_beyond op text start⟩
  rw [eq, append_joined_cons]
  rfl

theorem Remains.widen (h : Remains whole pending ((op, text) :: rest)) :
    Remains whole (pending.widen op text) rest := by
  obtain ⟨before, eq, start⟩ := h
  refine ⟨before, ?_, start⟩
  rw [eq, Cursor.widen, joined_append_cons]

/-- The operands that a chain may try: the one in hand, and those it comes to behind an operator or
by reading on past it. -/
inductive Tries : Cursor → List Piece → Cursor → Prop
  | here {pending : Cursor} {tail : List Piece} : Tries pending tail pending
  | beyond {pending part : Cursor} {op : BinaryOperator} {text : List Char} {rest : List Piece} :
      Tries (pending.beyond text) rest part → Tries pending ((op, text) :: rest) part
  | widen {pending part : Cursor} {op : BinaryOperator} {text : List Char} {rest : List Piece} :
      Tries (pending.widen op text) rest part → Tries pending ((op, text) :: rest) part

theorem Tries.partOf (h : Tries pending tail part) : Remains whole pending tail →
    part.PartOf whole := by
  induction h with
  | here => exact Remains.partOf
  | beyond _ ih => exact fun remains => ih remains.beyond
  | widen _ ih => exact fun remains => ih remains.widen

/-- The cursors that a step leaves to be parsed. -/
inductive Step.Leaves : Step → Cursor → Prop
  | operand {enclosure : Enclosure} {operand : Cursor} : Leaves (enclose enclosure operand) operand
  | base {base exponent : Cursor} {op : BinaryOperator} : Leaves (power base op exponent) base
  | exponent {base exponent : Cursor} {op : BinaryOperator} :
      Leaves (power base op exponent) exponent
  | tried {next : Level} {head part : Cursor} {tail : List Piece} :
      Tries head tail part → Leaves (chain next head tail) part

/-- A chain begins with its head, and nothing stands in front of it. -/
theorem Step.Cuts.remains {head : Cursor} (h : (Step.chain next head tail).Cuts level c) :
    Remains c head tail := by
  obtain ⟨-, start, eq, -⟩ := h
  exact ⟨[], eq.symm, start⟩

theorem Step.Cuts.partOf {s : Step} (h : s.Cuts level c) (leaves : s.Leaves part) :
    part.PartOf c := by
  cases leaves with
  | operand =>
    obtain ⟨-, -, before, behind, -, eq, start⟩ := h
    exact ⟨before, behind, eq, start⟩
  | base =>
    obtain ⟨-, -, eq, start, -⟩ := h
    exact ⟨[], _, eq, start⟩
  | @exponent base exponent op =>
    obtain ⟨-, -, eq, -, start⟩ := h
    refine ⟨base.text ++ [op.symbol], [], by simp [eq], ?_⟩
    rw [start, List.length_append, Nat.add_assoc]
    rfl
  | tried tries => exact tries.partOf h.remains

/-! ### Visits -/

section Visits

variable {α β : Type} {r : Run α} {v : Visit}

theorem Run.mem_visits_follow {next : Except Failure α → Run β} :
    v ∈ (r.follow next).visits ↔ v ∈ r.visits ∨ v ∈ (next r.result).visits :=
  List.mem_append

theorem Run.mem_visits_andThen {next : α → Run β} (mem : v ∈ (r.andThen next).visits) :
    v ∈ r.visits ∨ ∃ a, v ∈ (next a).visits := by
  rcases mem_visits_follow.1 mem with inside | behind
  · exact .inl inside
  · cases result : r.result with
    | ok a => exact .inr ⟨a, by simpa [result] using behind⟩
    | error f => simp [result] at behind

@[simp] theorem Folded.visits_asOperand (folded : Folded) (op : BinaryOperator) (c : Cursor)
    (r : Run Outcome) : (folded.asOperand op c r).visits = r.visits := by
  cases folded <;> rfl

@[simp] theorem Folded.visits_asLast (folded : Folded) (c : Cursor) (r : Run Outcome) :
    (folded.asLast c r).visits = r.visits := by
  cases folded <;> rfl

/-- A visit inside a cursor. -/
structure Visit.Within (whole : Cursor) (v : Visit) : Prop where
  partOf : v.cursor.PartOf whole
  trimmed : v.cursor.Trimmed

theorem Visit.Within.mono (h : v.Within part) (sub : part.PartOf whole) : v.Within whole :=
  ⟨h.partOf.trans sub, h.trimmed⟩

/-- A run visits its own cursor and what it visits besides lies in that. -/
theorem Run.within_visiting (h : ∀ v ∈ r.visits, v.Within c.trim) :
    ∀ v ∈ (r.visiting level c.trim).visits, v.Within c := by
  intro v mem
  rcases List.mem_cons.1 mem with rfl | inside
  · exact ⟨c.partOf_trim, c.trimmed_trim⟩
  · exact (h v inside).mono c.partOf_trim

end Visits

/-- Every visit of a run is inside the cursor, those of attempts that were given up included. -/
theorem within_of_run : ∀ (level : Level) (c : Cursor), ∀ v ∈ (run level c).visits, v.Within c := by
  refine (run_induction (P := fun _ c r => ∀ v ∈ r.visits, v.Within c)
    (Q := fun _ _ pending tail r => ∀ whole, Remains whole pending tail →
      ∀ v ∈ r.visits, v.Within whole)
    ?blank ?fail ?symbol ?descend ?enclose ?power ?chain ?last ?more).1
  case blank =>
    intro level c _
    exact Run.within_visiting nofun
  case fail =>
    intro level c cause position _ _
    exact Run.within_visiting nofun
  case symbol =>
    intro level c occurrence _ _
    exact Run.within_visiting nofun
  case descend =>
    intro level c next r _ _ ih
    exact Run.within_visiting ih
  case enclose =>
    intro level c enclosure operand r _ cuts ih
    exact Run.within_visiting fun v mem => (ih v mem).mono (cuts.partOf .operand)
  case power =>
    intro level c base op exponent r s _ cuts ih_base ih_exponent
    refine Run.within_visiting fun v mem => ?_
    rcases Run.mem_visits_andThen mem with inside | ⟨left, inside⟩
    · exact (ih_base v inside).mono (cuts.partOf .base)
    · exact (ih_exponent v inside).mono (cuts.partOf .exponent)
  case chain =>
    intro level c next head tail r _ cuts ih
    exact Run.within_visiting (ih c.trim cuts.remains)
  case last =>
    intro next folded pending r ih whole remains v mem
    rw [Run.map, folded.visits_asLast] at mem
    exact (ih v mem).mono remains.partOf
  case more =>
    intro next folded pending op text rest r beyond widened ih ih_beyond ih_widened whole remains v
      mem
    rcases Run.mem_visits_follow.1 mem with inside | inside
    · rw [folded.visits_asOperand] at inside
      exact (ih v inside).mono remains.partOf
    · -- the chain goes on behind the operand, reads on with a wider one, or stops
      split at inside
      · exact ih_beyond _ whole remains.beyond v inside
      · split at inside
        · exact ih_widened whole remains.widen v inside
        · cases inside

/-! ### Trails -/

/-- Whether the name in a context, if there is one, can be written. -/
def Context.Named : Context → Prop
  | inside (.function name) => IsName name.toList
  | _ => True

/-- A trail inside a cursor: each of its cursors is a part of the one in front of it, and the
position lies in the last of them. -/
inductive TrailIn (position : Nat) : Cursor → List Frame → Prop
  | nil {whole : Cursor} : whole.start ≤ position → position ≤ whole.stop →
      TrailIn position whole []
  | cons {whole : Cursor} {frame : Frame} {trail : List Frame} : frame.cursor.PartOf whole →
      frame.context.Named → TrailIn position frame.cursor trail →
      TrailIn position whole (frame :: trail)

namespace TrailIn

theorem mono (h : TrailIn position part trail) (sub : part.PartOf whole) :
    TrailIn position whole trail := by
  cases h with
  | nil lower upper => exact .nil (Nat.le_trans sub.start_le lower) (Nat.le_trans upper sub.stop_le)
  | cons inner named rest => exact .cons (inner.trans sub) named rest

/-- The position lies in the cursor around the trail. -/
theorem bounds (h : TrailIn position whole trail) :
    whole.start ≤ position ∧ position ≤ whole.stop := by
  induction h with
  | nil lower upper => exact ⟨lower, upper⟩
  | cons inner _ _ ih =>
    exact ⟨Nat.le_trans inner.start_le ih.1, Nat.le_trans ih.2 inner.stop_le⟩

theorem of_mem (h : TrailIn position whole trail) (mem : frame ∈ trail) :
    frame.cursor.PartOf whole ∧ frame.context.Named ∧
      frame.cursor.start ≤ position ∧ position ≤ frame.cursor.stop := by
  induction h with
  | nil => cases mem
  | cons inner named rest ih =>
    rcases List.mem_cons.1 mem with rfl | later
    · exact ⟨inner, named, rest.bounds⟩
    · obtain ⟨sub, facts⟩ := ih later
      exact ⟨sub.trans inner, facts⟩

theorem pairwise (h : TrailIn position whole trail) :
    trail.Pairwise fun outer inner => inner.cursor.PartOf outer.cursor := by
  induction h with
  | nil => exact List.Pairwise.nil
  | cons _ _ rest ih => exact List.pairwise_cons.2 ⟨fun _ mem => (rest.of_mem mem).1, ih⟩

/-- The trail of an operand begins with the operand, unless that is missing altogether. -/
theorem ofOperand {e : Failure} (h : TrailIn e.position part e.trail) (sub : part.PartOf whole)
    (side : Side) (op : BinaryOperator) :
    TrailIn (Failure.ofOperand side op part e).position whole
      (Failure.ofOperand side op part e).trail := by
  rw [Failure.position_ofOperand]
  unfold Failure.ofOperand
  split
  · exact .cons sub trivial (.nil h.bounds.1 h.bounds.2)
  · exact .cons sub trivial h

theorem asOperand {r : Run Outcome} {f : Failure} {side : Side}
    (h : ∀ e, r.result = .error e → TrailIn e.position part e.trail) (sub : part.PartOf whole)
    (failed : (r.asOperand side op part).result = .error f) :
    TrailIn f.position whole f.trail := by
  obtain ⟨e, alone, rfl⟩ := Run.result_mapFailure_eq_error.1 failed
  exact (h e alone).ofOperand sub side op

end TrailIn

/-- The name of a function is one that can be written. -/
theorem Enclosure.Encloses.named {enclosure : Enclosure} {before behind : List Char}
    (h : enclosure.Encloses before behind) : (Context.inside enclosure).Named := by
  cases h with
  | sign => trivial
  | transpose => trivial
  | parentheses => trivial
  | function isName => simpa [Context.Named] using isName

/-- The trail of every failure is nested inside the cursor that was read. -/
theorem trailIn_of_run : ∀ (level : Level) (c : Cursor) (f : Failure),
    (run level c).result = .error f → TrailIn f.position c f.trail := by
  refine (run_induction (P := fun _ c r => ∀ f, r.result = .error f → TrailIn f.position c f.trail)
    (Q := fun _ _ pending tail r => ∀ whole, Remains whole pending tail →
      ∀ f, r.result = .error f → TrailIn f.position whole f.trail)
    ?blank ?fail ?symbol ?descend ?enclose ?power ?chain ?last ?more).1
  case blank =>
    intro level c _ f h
    obtain rfl := Except.error.inj h
    have sub := c.partOf_trim
    exact .nil sub.start_le (Nat.le_trans (Nat.le_add_right _ _) sub.stop_le)
  case fail =>
    rintro level c cause position not_blank ⟨-, before, behind, text, rfl, -⟩ f h
    obtain rfl := Except.error.inj h
    -- a level that fails at once does so inside the trimmed cursor
    have inside : TrailIn (c.trim.start + before.length) c.trim [] := by
      refine .nil (Nat.le_add_right _ _) ?_
      simp only [Cursor.stop, Cursor.length, text, List.length_append]
      omega
    exact inside.mono c.partOf_trim
  case symbol =>
    intro level c occurrence _ _ f h
    cases h
  case descend =>
    intro level c next r _ _ ih f h
    exact (ih f h).mono c.partOf_trim
  case enclose =>
    intro level c enclosure operand r _ cuts ih f h
    obtain ⟨e, failed, rfl⟩ := Run.result_mapFailure_eq_error.1 (Run.result_map_eq_error.1 h)
    -- the frame of the construct is the trimmed cursor, and the operand lies in that
    have inner := (ih e failed).mono (cuts.partOf .operand)
    obtain ⟨-, -, before, behind, encloses, -⟩ := cuts
    exact .cons c.partOf_trim encloses.named inner
  case power =>
    intro level c base op exponent r s _ cuts ih_base ih_exponent f h
    have inside : TrailIn f.position c.trim f.trail := by
      rcases Run.result_andThen_eq_error.1 h with failed | ⟨left, -, failed⟩
      · exact TrailIn.asOperand ih_base (cuts.partOf .base) failed
      · exact TrailIn.asOperand ih_exponent (cuts.partOf .exponent)
          (Run.result_map_eq_error.1 failed)
    exact inside.mono c.partOf_trim
  case chain =>
    intro level c next head tail r _ cuts ih f h
    exact (ih c.trim cuts.remains f h).mono c.partOf_trim
  case last =>
    intro next folded pending r ih whole remains f h
    have failed := Run.result_map_eq_error.1 h
    -- a single operand has no frame of its own
    cases folded with
    | none => exact (ih f failed).mono remains.partOf
    | some => exact TrailIn.asOperand ih remains.partOf failed
  case more =>
    intro next folded pending op text rest r beyond widened ih ih_beyond ih_widened whole remains f
      h
    rw [Run.result_follow] at h
    split at h
    · exact ih_beyond _ whole remains.beyond f h
    · next e failed =>
      split at h
      · exact ih_widened whole remains.widen f h
      · -- the operand at which the chain stops is one of the operator in front or of the one behind
        obtain rfl := Except.error.inj h
        obtain ⟨side, around, eq⟩ := folded.exists_asOperand_eq op
        rw [eq] at failed
        exact TrailIn.asOperand ih remains.partOf failed

/-! ### What is shown of a parse -/

/-- Whether a note has all that its kind needs. -/
def ContextNote.Complete (n : ContextNote) : Prop :=
  match n.kind with
  | .binaryOperand => (∃ op, n.operator? = some (.binary op)) ∧ ∃ side, n.side? = some side
  | .unaryOperand => ∃ sign, n.operator? = some (.sign sign)
  | .transposeOperand => True
  | .parentheses => True
  | .functionArgument => ∃ name, n.name? = some name ∧ IsName name.toList

theorem Context.Named.complete {context : Context} (h : context.Named) :
    context.note.Complete := by
  cases context with
  | operand side op => exact ⟨⟨op, rfl⟩, side, rfl⟩
  | inside enclosure =>
    cases enclosure with
    | sign s => exact ⟨s, rfl⟩
    | transpose => trivial
    | parentheses => trivial
    | function name => exact ⟨name, rfl, h⟩

/-- A complete note can be described. -/
theorem ContextNote.Complete.exists_describe {n : ContextNote} (h : n.Complete) :
    ∃ phrase, n.describe? = some phrase := by
  -- a description fails only for an operand without a side
  rw [← Option.ne_none_iff_exists', ne_eq, describe?_eq_none_iff]
  rintro ⟨kind, no_side⟩
  obtain ⟨-, side, some_side⟩ : (∃ op, n.operator? = some (.binary op)) ∧
      ∃ side, n.side? = some side := by
    simpa only [Complete, kind] using h
  rw [no_side] at some_side
  cases some_side

theorem exists_mapM_eq_some {α β : Type} {g : α → Option β} {items : List α}
    (h : ∀ x ∈ items, ∃ y, g x = some y) : ∃ ys, items.mapM g = some ys := by
  induction items with
  | nil => exact ⟨[], rfl⟩
  | cons x items ih =>
    obtain ⟨y, here⟩ := h x List.mem_cons_self
    obtain ⟨ys, there⟩ := ih fun x mem => h x (List.mem_cons_of_mem _ mem)
    exact ⟨y :: ys, by simp [List.mapM_cons, here, there]⟩

/-- A report with complete notes has its breadcrumbs. -/
theorem Report.exists_breadcrumbs {r : Report} (h : ∀ entry ∈ r.trail, entry.1.Complete) :
    ∃ crumbs, r.breadcrumbs? = some crumbs := by
  refine exists_mapM_eq_some ?_
  rintro ⟨note, cursor⟩ mem
  obtain ⟨phrase, described⟩ := (h _ mem).exists_describe
  exact ⟨_, Option.map_eq_some_iff.2 ⟨phrase, described, rfl⟩⟩

/-- A visit of a parse that shows a slice of the text. What the level leaves to be parsed are slices
of the cursor it was entered with, and of the text. -/
structure Visit.ShowsSlice (text : String) (v : Visit) : Prop where
  slice : v.cursor.IsSliceOf text
  trimmed : v.cursor.Trimmed
  leaves : ∀ part, v.cursor.isEmpty = false → (v.level.step v.cursor).Leaves part →
    part.IsSliceOf text ∧ ∃ n m : Nat, v.cursor.slice n m = .ok part

/-- A failure with a trail of slices of the text, each a part of the one in front of it, with the
position in all of them and with all that is needed to describe them. -/
structure Failure.NestsIn (text : String) (f : Failure) : Prop where
  slices : ∀ frame ∈ f.trail, frame.cursor.IsSliceOf text
  nested : f.trail.Pairwise fun outer inner =>
    outer.cursor.start ≤ inner.cursor.start ∧ inner.cursor.stop ≤ outer.cursor.stop
  position : ∀ frame ∈ f.trail, frame.cursor.start ≤ f.position ∧ f.position ≤ frame.cursor.stop
  complete : ∀ frame ∈ f.trail, frame.context.note.Complete
  described : ∃ crumbs, (Report.ofFailure f (some text)).breadcrumbs? = some crumbs

theorem Visit.Within.showsSlice {text : String} {v : Visit} (h : v.Within (.ofString text)) :
    v.ShowsSlice text := by
  refine ⟨h.partOf.isSliceOf, h.trimmed, fun part nonempty leaves => ?_⟩
  -- a level cuts trimmed cursors only, and what is visited is trimmed
  have core : Core v.cursor.text :=
    ⟨by simpa [Cursor.isEmpty] using nonempty, h.trimmed.first, h.trimmed.last⟩
  have inside : part.PartOf v.cursor := (step_cuts v.level core).partOf leaves
  obtain ⟨n, m, cut, -⟩ := inside.exists_slice
  exact ⟨(inside.trans h.partOf).isSliceOf, n, m, cut⟩

theorem TrailIn.nestsIn {text : String} {f : Failure}
    (h : TrailIn f.position (.ofString text) f.trail) : f.NestsIn text := by
  have complete : ∀ frame ∈ f.trail, frame.context.note.Complete := fun frame mem =>
    (h.of_mem mem).2.1.complete
  exact {
    slices := fun frame mem => (h.of_mem mem).1.isSliceOf
    nested := h.pairwise.imp fun sub => ⟨sub.start_le, sub.stop_le⟩
    position := fun frame mem => (h.of_mem mem).2.2
    complete := complete
    described := Report.exists_breadcrumbs fun entry mem => by
      obtain ⟨frame, inside, rfl⟩ := List.mem_map.1 mem
      exact complete frame inside }

/-- Every visit of a parse shows a slice of the text, those of attempts that were given up included,
and the trail of a failure is nested in the text. -/
theorem shows_slices_parse (text : String) :
    (∀ v ∈ (parse text).visits, v.ShowsSlice text) ∧
      ∀ f, (parse text).result = .error f → f.NestsIn text := by
  constructor
  · intro v mem
    exact (within_of_run _ _ v mem).showsSlice
  · intro f failed
    exact (trailIn_of_run _ _ f failed).nestsIn

/-- The product is read up to the sign, in vain, and then as a whole. The brackets in it are
empty. -/
theorem shows_slices_parse_abandoned :
    (⟨.multiplicative, ⟨['a', '*'], 0⟩⟩ ∈ (parse "a*-()'").visits ∧
      (⟨.multiplicative, ⟨['a', '*'], 0⟩⟩ : Visit).ShowsSlice "a*-()'") ∧
    ∃ f, (parse "a*-()'").result = .error f ∧ f.position = 4 ∧
      f.trail = [⟨.operand .right .multiply, ⟨['-', '(', ')', '\x27'], 2⟩⟩,
        ⟨.inside (.sign .minus), ⟨['-', '(', ')', '\x27'], 2⟩⟩,
        ⟨.inside .transpose, ⟨['(', ')', '\x27'], 3⟩⟩] ∧
      f.NestsIn "a*-()'" := by
  have second : (parse "a*-()'").visits[1]? = some ⟨.multiplicative, ⟨['a', '*'], 0⟩⟩ := by cbv
  have visited := List.mem_of_getElem? second
  have failed : (parse "a*-()'").result = .error ⟨.emptyBrackets, 4,
      [⟨.operand .right .multiply, ⟨['-', '(', ')', '\x27'], 2⟩⟩,
        ⟨.inside (.sign .minus), ⟨['-', '(', ')', '\x27'], 2⟩⟩,
        ⟨.inside .transpose, ⟨['(', ')', '\x27'], 3⟩⟩]⟩ := by
    cbv
  obtain ⟨shown, nested⟩ := shows_slices_parse "a*-()'"
  exact ⟨⟨visited, shown _ visited⟩, _, failed, rfl, rfl, nested _ failed⟩

end Formula
