import TaggedUnion.Proofs.Document.Grammar
import TaggedUnion.Proofs.Document.Extension
import Mathlib.Data.List.Forall2
import Mathlib.Data.List.TakeWhile

/-!
# The remarks on a document

A reading remarks on the plain lines above the first brace that set no flag, one
by one.  After these it has one error to tell, or else the completion and, if
content follows, how much of it was ignored.

`Reading.Remarks` says so clause by clause, and where the remarks belong: they
name lines of the document from above to below, and quote them without the
blanks around them.  Only an error at the end of the document names none.
-/

namespace TaggedUnion

namespace ContentLine

/-! ## Numbers of content lines -/

/-- Content lines have a raw line each, at the place that their number tells. -/
theorem exists_raw_of_mem_ofLines
    {lines : List Text}
    {line : ContentLine}
    (member : line ∈ ofLines lines) :
    ∃ above raw below,
      lines = above ++ raw :: below ∧ line = ⟨above.length + 1, Text.trim raw⟩ := by
  rcases List.append_of_mem member with ⟨before, after, split⟩
  rcases numberedFrom_eq_append_cons split with ⟨above, raw, below, isSplit, -, isLine, -, -⟩
  exact ⟨above, raw, below, isSplit, by rw [isLine, Nat.add_comm]⟩

theorem number_ge_of_mem_numberedFrom
    {number : Nat}
    {lines : List Text}
    {line : ContentLine}
    (member : line ∈ numberedFrom number lines) :
    number ≤ line.number := by
  rcases List.append_of_mem member with ⟨before, after, split⟩
  rcases numberedFrom_eq_append_cons split with ⟨above, _, _, _, -, rfl, -, -⟩
  exact Nat.le_add_right number above.length

/-- Content lines are numbered from above to below. -/
theorem pairwise_number (number : Nat) (lines : List Text) :
    (numberedFrom number lines).Pairwise (·.number < ·.number) := by
  induction lines generalizing number with
  | nil => exact .nil
  | cons raw rest induction =>
      rw [numberedFrom]
      split
      · exact .cons (fun line => number_ge_of_mem_numberedFrom) (induction (number + 1))
      · exact induction (number + 1)

/-! ## Lines that are no directives -/

/-- Whether a line sets one of the two flags. -/
def isDirective (line : ContentLine) : Bool :=
  line.words = ["Set", "AllowNulls"] ∨ line.words = ["Set", "KnownTypes"]

/-- The plain lines above the first brace that set no flag. -/
def unknown (content : List ContentLine) : List ContentLine :=
  (content.takeWhile (·.marker = .plain)).filter (!·.isDirective)

/-- The remark on a plain line that sets no flag. -/
def unknownRemark (line : ContentLine) : Diagnostic where
  severity := .warning
  code := "UnknownTopLevelDirective"
  message := "Unknown command"
  lineNumber := some line.number
  line := some line.text

theorem unknown_sublist (content : List ContentLine) : (unknown content).Sublist content :=
  List.filter_sublist.trans (List.takeWhile_sublist _)

/-- Below plain lines the search for unknown ones goes on. -/
theorem unknown_append_of_plain
    {before : List ContentLine}
    (plain : ∀ line ∈ before, line.marker = .plain)
    (rest : List ContentLine) :
    unknown (before ++ rest) = unknown before ++ unknown rest := by
  have kept : before.takeWhile (·.marker = .plain) = before :=
    List.takeWhile_eq_self_iff.mpr (by simpa using plain)
  rw [unknown, List.takeWhile_append_of_pos (by simpa using plain), List.filter_append, unknown,
    kept, unknown]

/-- Below a brace there are no unknown lines. -/
theorem unknown_append_of_marked
    {before : List ContentLine}
    (marked : ¬ ∀ line ∈ before, line.marker = .plain)
    (rest : List ContentLine) :
    unknown (before ++ rest) = unknown before := by
  have stops : (before.takeWhile (·.marker = .plain)).length ≠ before.length := by
    intro whole
    have kept := (List.takeWhile_prefix (l := before) (·.marker = .plain)).eq_of_length whole
    exact marked (by simpa using List.takeWhile_eq_self_iff.mp kept)
  rw [unknown, List.takeWhile_append, if_neg stops, unknown]

theorem unknown_cons_of_marked
    {line : ContentLine}
    (marked : line.marker ≠ .plain)
    (rest : List ContentLine) :
    unknown (line :: rest) = [] := by
  rw [unknown, List.takeWhile_cons_of_neg (by simpa using marked)]
  rfl

end ContentLine

namespace Progress

/-! ## Remarks made before the schema block is closed -/

/-- The lines read so far have been remarked on as far as they are unknown. -/
structure Remarked (before : List ContentLine) (progress : Progress) : Prop where
  diagnostics : progress.diagnostics = (ContentLine.unknown before).map ContentLine.unknownRemark
  directives : progress.scope = .directives ↔ ∀ line ∈ before, line.marker = .plain

theorem readDirective_diagnostics
    (progress : Progress)
    {line : ContentLine}
    (plain : line.marker = .plain) :
    (progress.readDirective line).diagnostics =
      progress.diagnostics ++ (ContentLine.unknown [line]).map ContentLine.unknownRemark := by
  have single : ContentLine.unknown [line] = if line.isDirective then [] else [line] := by
    cases known : line.isDirective <;> simp [ContentLine.unknown, plain, known]
  have directives :
      line.isDirective =
        decide (line.words = allowNullsDirective ∨ line.words = knownTypesDirective) := rfl
  rw [single, directives]
  unfold readDirective
  split
  · rename_i allowNulls
    simp [allowNulls]
  · split
    · rename_i knownTypes
      simp [knownTypes]
    · rename_i notAllowNulls notKnownTypes
      rw [if_neg (by simp [notAllowNulls, notKnownTypes])]
      rfl

theorem readDirective_scope (progress : Progress) (line : ContentLine) :
    (progress.readDirective line).scope = progress.scope := by
  unfold readDirective
  split
  · rfl
  · split <;> rfl

/-- Inside the schema block nothing is remarked on. -/
theorem Remarked.of_marked
    {before : List ContentLine}
    {progress next : Progress}
    (remarked : Remarked before progress)
    (inside : progress.scope ≠ .directives)
    (line : ContentLine)
    (sameDiagnostics : next.diagnostics = progress.diagnostics)
    (nextInside : next.scope ≠ .directives) :
    Remarked (before ++ [line]) next where
  diagnostics := by
    rw [sameDiagnostics, remarked.diagnostics,
      ContentLine.unknown_append_of_marked (remarked.directives.not.mp inside)]
  directives := by
    refine iff_of_false nextInside fun plain => inside (remarked.directives.mpr ?_)
    exact fun line member => plain line (List.mem_append_left _ member)

theorem Remarked.step
    {before : List ContentLine}
    {progress next : Progress}
    {line : ContentLine}
    (remarked : progress.scope.IsOpen → Remarked before progress)
    (starts : Text.startsWord line.text = true)
    (stepped : progress.step line = .ok next)
    (nextOpen : next.scope.IsOpen) :
    Remarked (before ++ [line]) next := by
  rcases progress with ⟨scope, schema, diagnostics⟩
  cases scope with
  | directives =>
      have known := remarked trivial
      have allPlain := known.directives.mp rfl
      rcases (Outline.step_directives_eq_ok_iff _ _ _ _).mp stepped with
        ⟨plain, spelled, rfl⟩ | ⟨opening, spelled, rfl⟩
      · have plainLine : line.marker = .plain :=
          (Outline.marker_eq_plain_iff line).mpr (spelled ▸ plain.plain)
        constructor
        case diagnostics =>
          rw [readDirective_diagnostics _ plainLine, known.diagnostics,
            ContentLine.unknown_append_of_plain allPlain, List.map_append]
        case directives =>
          refine iff_of_true (readDirective_scope _ line) ?_
          rw [List.forall_mem_append]
          exact ⟨allPlain, by simpa using plainLine⟩
      · have opens : line.marker = .opens :=
          (Outline.marker_eq_opens_iff line).mpr (spelled ▸ opening.opens)
        have marked : line.marker ≠ .plain := by simp [opens]
        constructor
        case diagnostics =>
          rw [known.diagnostics, ContentLine.unknown_append_of_plain allPlain,
            ContentLine.unknown_cons_of_marked marked, List.append_nil]
        case directives =>
          refine iff_of_false (by simp) fun plain => marked (plain line ?_)
          exact List.mem_append_right _ List.mem_cons_self
  | body =>
      rcases (Outline.step_body_eq_ok_iff _ _ starts _).mp stepped with
        ⟨item, spelled, rfl⟩ | ⟨opening, spelled, rfl⟩ | ⟨closing, spelled, rfl⟩
      · exact (remarked trivial).of_marked (by simp) line rfl (by simp)
      · exact (remarked trivial).of_marked (by simp) line rfl (by simp)
      · exact nextOpen.elim
  | variant current =>
      rcases (Outline.step_variant_eq_ok_iff _ _ _ _ _).mp stepped with
        ⟨fieldLine, spelled, rfl⟩ | ⟨closing, spelled, rfl⟩
      · exact (remarked trivial).of_marked (by simp) line rfl (by simp)
      · exact (remarked trivial).of_marked (by simp) line rfl (by simp)
  | finished | ignoring first count =>
      simp only [Progress.step, Except.ok.injEq] at stepped
      subst stepped
      exact nextOpen.elim

/-- After a run that has not closed the schema block, the unknown lines have been remarked on. -/
theorem remarked_run
    {content : List ContentLine}
    {last : Progress}
    (starts : ∀ line ∈ content, Text.startsWord line.text = true)
    (runs : run {} content = .ok last)
    (isOpen : last.scope.IsOpen) :
    Remarked content last := by
  refine run_invariant (fun before progress => progress.scope.IsOpen → Remarked before progress)
    ?_ ?_ runs isOpen
  · exact fun _ => ⟨rfl, by simp⟩
  · intro before line middle next member remarked stepped nextOpen
    exact .step remarked (starts line member) stepped nextOpen

/-- Past the schema block no line is refused. -/
theorem isOpen_of_step_error
    {progress : Progress}
    {line : ContentLine}
    {fault : LineFault}
    (refused : progress.step line = .error fault) :
    progress.scope.IsOpen := by
  rcases progress with ⟨scope, schema, diagnostics⟩
  cases scope with
  | directives | body | variant current => trivial
  | finished | ignoring first count => cases refused

/-- Above the schema block no plain line is refused. -/
theorem marked_of_step_error
    {progress : Progress}
    {line : ContentLine}
    {fault : LineFault}
    (directives : progress.scope = .directives)
    (refused : progress.step line = .error fault) :
    line.marker ≠ .plain := by
  intro plain
  simp [step, directives, plain] at refused

/-- The unknown lines of a document stand above the line that is refused. -/
theorem Remarked.unknown_of_refused
    {before : List ContentLine}
    {progress : Progress}
    {line : ContentLine}
    {fault : LineFault}
    (remarked : Remarked before progress)
    (refused : progress.step line = .error fault)
    (after : List ContentLine) :
    ContentLine.unknown (before ++ line :: after) = ContentLine.unknown before := by
  by_cases directives : progress.scope = .directives
  · rw [ContentLine.unknown_append_of_plain (remarked.directives.mp directives),
      ContentLine.unknown_cons_of_marked (marked_of_step_error directives refused),
      List.append_nil]
  · exact ContentLine.unknown_append_of_marked (remarked.directives.not.mp directives) _

/-- The schema block is closed by a closing line in it, and with a remark on the completion. -/
theorem step_eq_finished
    {progress : Progress}
    {line : ContentLine}
    {schema : Schema}
    {diagnostics : List Diagnostic}
    (starts : Text.startsWord line.text = true)
    (stepped : progress.step line = .ok ⟨.finished, schema, diagnostics⟩) :
    progress.scope = .body ∧
      progress.schema = schema ∧
      diagnostics = progress.diagnostics ++ [completion schema.name line] ∧
      Outline.Closes line.text := by
  rcases progress with ⟨scope, reached, remarks⟩
  cases scope with
  | directives =>
      rcases (Outline.step_directives_eq_ok_iff _ _ _ _).mp stepped with
        ⟨plain, -, equal⟩ | ⟨opening, -, equal⟩
      · have sameScope := congrArg Progress.scope equal
        rw [readDirective_scope] at sameScope
        cases sameScope
      · cases equal
  | body =>
      rcases (Outline.step_body_eq_ok_iff _ _ starts _).mp stepped with
        ⟨item, -, equal⟩ | ⟨opening, -, equal⟩ | ⟨closing, spelled, equal⟩
      · cases equal
      · cases equal
      · cases equal
        exact ⟨rfl, rfl, rfl, spelled ▸ closing.closes⟩
  | variant current =>
      rcases (Outline.step_variant_eq_ok_iff _ _ _ _ _).mp stepped with
        ⟨fieldLine, -, equal⟩ | ⟨closing, -, equal⟩
      · cases equal
      · cases equal
  | finished | ignoring first count => cases stepped

end Progress

/-- Only the end of the document shows the error. -/
def Rejection.IsAtEnd : Rejection → Prop
  | atLine _ _ => False
  | noBlock | unclosed _ => True

/-- Where lines run out before the schema block is closed, the end shows the error. -/
theorem Progress.finish_eq_aborted
    {progress : Progress}
    {earlier : List Diagnostic}
    {rejection : Rejection}
    (aborted : progress.finish = .aborted earlier rejection) :
    progress.scope.IsOpen ∧ progress.diagnostics = earlier ∧ rejection.IsAtEnd := by
  rcases progress with ⟨scope, schema, diagnostics⟩
  cases scope with
  | finished | ignoring first count => cases aborted
  | directives | body | variant current =>
      cases aborted
      exact ⟨trivial, rfl, trivial⟩

namespace Reading

/-! ## The whole list of remarks -/

/-- The line that closes the schema block, below the lines that lead up to it. -/
structure IsClosing (before : List ContentLine) (closing : ContentLine) : Prop where
  opened : ∃ opened : Outline.Opened, opened.lines = before.map (·.text)
  closes : Outline.Closes closing.text

/-- A rejected document has the remarks on unknown lines, and the error at a line or at the end. -/
theorem earlier_of_aborted
    {lines : List Text}
    {earlier : List Diagnostic}
    {rejection : Rejection}
    (aborted : ofLines lines = .aborted earlier rejection) :
    earlier =
        (ContentLine.unknown (ContentLine.ofLines lines)).map ContentLine.unknownRemark ∧
      (rejection.IsAtEnd ∨
        ∃ before line after fault,
          ContentLine.ofLines lines = before ++ line :: after ∧
            rejection = .atLine line fault ∧
            (ContentLine.unknown (ContentLine.ofLines lines)).Sublist before) := by
  have starts (line : ContentLine) (member : line ∈ ContentLine.ofLines lines) :=
    ContentLine.startsWord_of_mem_ofLines member
  rw [ofLines, Progress.read_eq_run] at aborted
  cases runs : Progress.run {} (ContentLine.ofLines lines) with
  | ok last =>
      rw [runs] at aborted
      rcases Progress.finish_eq_aborted aborted with ⟨isOpen, rfl, atEnd⟩
      exact ⟨(Progress.remarked_run starts runs isOpen).diagnostics, Or.inl atEnd⟩
  | error reading =>
      rcases Progress.run_eq_error runs with
        ⟨before, line, after, middle, fault, split, earlierRuns, refused, rfl⟩
      simp only [runs, Reading.aborted.injEq] at aborted
      rcases aborted with ⟨rfl, rfl⟩
      have remarked : Progress.Remarked before middle :=
        Progress.remarked_run (fun line member => starts line (by simp [split, member]))
          earlierRuns (Progress.isOpen_of_step_error refused)
      have unknown := remarked.unknown_of_refused refused after
      rw [split, unknown]
      exact ⟨remarked.diagnostics, Or.inr
        ⟨before, line, after, fault, rfl, rfl, ContentLine.unknown_sublist before⟩⟩

/-- A complete document has the remarks on unknown lines, on its completion and on what follows. -/
theorem diagnostics_of_completed
    {lines : List Text}
    {schema : Schema}
    {diagnostics : List Diagnostic}
    (completed : ofLines lines = .completed schema diagnostics) :
    ∃ before closing after,
      ContentLine.ofLines lines = before ++ closing :: after ∧
        IsClosing before closing ∧
        (ContentLine.unknown (ContentLine.ofLines lines)).Sublist before ∧
        diagnostics =
          (ContentLine.unknown (ContentLine.ofLines lines)).map ContentLine.unknownRemark ++
            Progress.completion schema.name closing :: Progress.trailing schema.name after := by
  have initiallyOpen : ({} : Progress).scope.IsOpen := trivial
  rcases Progress.exists_closing_of_completed initiallyOpen (by simp) completed with
    ⟨before, closing, after, early, split, runs, -, rfl⟩
  have starts (line : ContentLine) (member : line ∈ before ++ [closing]) :
      Text.startsWord line.text = true := by
    have inDocument : line ∈ ContentLine.ofLines lines := by
      rw [split, List.append_cons]
      exact List.mem_append_left _ member
    exact ContentLine.startsWord_of_mem_ofLines inDocument
  have startsBefore (line : ContentLine) (member : line ∈ before) :=
    starts line (List.mem_append_left _ member)
  rcases Progress.run_concat runs with ⟨middle, earlierRuns, stepped⟩
  rcases Progress.step_eq_finished (starts closing (by simp)) stepped with
    ⟨inBody, -, remarks, closes⟩
  obtain rfl : early = middle.diagnostics := List.append_cancel_right remarks
  have remarked : Progress.Remarked before middle :=
    Progress.remarked_run startsBefore earlierRuns (by rw [inBody]; trivial)
  have unknown : ContentLine.unknown (ContentLine.ofLines lines) =
      ContentLine.unknown before := by
    rw [split]
    exact ContentLine.unknown_append_of_marked
      (remarked.directives.not.mp (by simp [inBody])) _
  have traces := Outline.traces_run startsBefore earlierRuns
  rw [Outline.Traces, inBody] at traces
  rcases traces with ⟨opened, spelled, -⟩
  refine ⟨before, closing, after, split, ⟨⟨opened, spelled.symm⟩, closes⟩, ?_, ?_⟩
  · rw [unknown]
    exact ContentLine.unknown_sublist before
  · rw [unknown, remarked.diagnostics]

end Reading

namespace Diagnostic

/-! ## Remarks on unknown lines -/

/-- Whether a remark is on an unknown line. -/
def isUnknown (remark : Diagnostic) : Bool :=
  remark.code = ("UnknownTopLevelDirective" : Text)

theorem isUnknown_eq_false
    {remark : Diagnostic}
    (otherCode :
      remark.code = ("ParsingCompleted" : Text) ∨
        remark.code = ("StructuralError" : Text) ∨ remark.code = ("FieldArityError" : Text)) :
    remark.isUnknown = false := by
  rcases otherCode with code | code | code
  · rw [isUnknown, code]
    decide
  · rw [isUnknown, code]
    decide
  · rw [isUnknown, code]
    decide

theorem isUnknown_rejection (rejection : Rejection) :
    rejection.diagnostic.isUnknown = false := by
  apply isUnknown_eq_false
  cases rejection with
  | noBlock | unclosed name => exact Or.inr (Or.inl rfl)
  | atLine line fault =>
      cases fault with
      | openedTooDeep | openedUnnamed | closedTooOften => exact Or.inr (Or.inl rfl)
      | wordCount found => exact Or.inr (Or.inr rfl)
      | missingType => exact Or.inr (Or.inr rfl)

theorem filter_isUnknown_trailing (name : Text) (content : List ContentLine) :
    (Progress.trailing name content).filter (·.isUnknown) = [] := by
  cases content with
  | nil => rfl
  | cons first more =>
      have other : ∀ remark ∈ Progress.trailing name (first :: more), remark.isUnknown = false := by
        rw [Progress.trailing, List.forall_mem_singleton]
        exact isUnknown_eq_false (Or.inr (Or.inl rfl))
      exact List.filter_eq_nil_iff.mpr fun remark member => by simp [other remark member]

theorem filter_isUnknown_unknown (unknown : List ContentLine) :
    (unknown.map ContentLine.unknownRemark).filter (·.isUnknown) =
      unknown.map ContentLine.unknownRemark := by
  rw [List.filter_eq_self]
  intro remark member
  rcases List.mem_map.mp member with ⟨line, -, rfl⟩
  rfl

theorem filter_isError_unknown (unknown : List ContentLine) :
    (unknown.map ContentLine.unknownRemark).filter (·.isError) = [] := by
  rw [List.filter_eq_nil_iff]
  intro remark member
  rcases List.mem_map.mp member with ⟨line, -, rfl⟩
  exact Bool.false_ne_true

/-! ## Where remarks belong -/

/-- A remark names a line by its number, and by its text if it quotes any. -/
def Names (remark : Diagnostic) (line : ContentLine) : Prop :=
  remark.lineNumber = some (line.number : Int) ∧
    ∀ text, remark.line = some text → text = line.text

/-- Remarks that name some of the lines, one each and from above to below. -/
def NameLines (remarks : List Diagnostic) (content : List ContentLine) : Prop :=
  ∃ named : List ContentLine, named.Sublist content ∧ List.Forall₂ Names remarks named

variable {remarks moreRemarks : List Diagnostic} {content moreContent : List ContentLine}

theorem nameLines_nil (content : List ContentLine) : NameLines [] content :=
  ⟨[], List.nil_sublist content, .nil⟩

theorem NameLines.cons
    {remark : Diagnostic}
    {line : ContentLine}
    (names : remark.Names line)
    (nameLines : NameLines remarks content) :
    NameLines (remark :: remarks) (line :: content) := by
  rcases nameLines with ⟨named, isPart, each⟩
  exact ⟨line :: named, isPart.cons_cons line, .cons names each⟩

theorem NameLines.append
    (first : NameLines remarks content)
    (second : NameLines moreRemarks moreContent) :
    NameLines (remarks ++ moreRemarks) (content ++ moreContent) := by
  rcases first with ⟨named, isPart, each⟩
  rcases second with ⟨moreNamed, moreIsPart, moreEach⟩
  exact ⟨named ++ moreNamed, isPart.append moreIsPart, List.rel_append each moreEach⟩

theorem nameLines_unknown
    {unknown : List ContentLine}
    (isPart : unknown.Sublist content) :
    NameLines (unknown.map ContentLine.unknownRemark) content := by
  refine ⟨unknown, isPart, List.forall₂_map_left_iff.mpr (List.forall₂_same.mpr ?_)⟩
  intro line _
  exact ⟨rfl, fun text quoted => (Option.some.inj quoted).symm⟩

theorem nameLines_trailing (name : Text) (content : List ContentLine) :
    NameLines (Progress.trailing name content) content := by
  cases content with
  | nil => exact nameLines_nil []
  | cons first more =>
      refine .cons ⟨rfl, ?_⟩ (nameLines_nil more)
      exact fun text quoted => (Option.some.inj quoted).symm

theorem NameLines.exists_of_mem
    (nameLines : NameLines remarks content)
    {remark : Diagnostic}
    (member : remark ∈ remarks) :
    ∃ line ∈ content, remark.Names line := by
  rcases nameLines with ⟨named, isPart, each⟩
  have found : ∃ line ∈ named, remark.Names line := by
    clear isPart
    induction each with
    | nil => cases member
    | cons names _ induction =>
        rcases List.mem_cons.mp member with rfl | later
        · exact ⟨_, List.mem_cons_self, names⟩
        · rcases induction later with ⟨line, inNamed, namesLine⟩
          exact ⟨line, List.mem_cons_of_mem _ inNamed, namesLine⟩
  rcases found with ⟨line, inNamed, names⟩
  exact ⟨line, isPart.subset inNamed, names⟩

theorem filterMap_lineNumber_of_names
    {named : List ContentLine}
    (each : List.Forall₂ Names remarks named) :
    remarks.filterMap (·.lineNumber) = named.map fun line => (line.number : Int) := by
  induction each with
  | nil => rfl
  | cons names _ induction =>
      rw [List.filterMap_cons_some names.1, List.map_cons, induction]

/-- The numbers of lines that are named from above to below increase. -/
theorem NameLines.increasing
    {lines : List Text}
    (nameLines : NameLines remarks (ContentLine.ofLines lines)) :
    (remarks.filterMap (·.lineNumber)).Pairwise (· < ·) := by
  rcases nameLines with ⟨named, isPart, each⟩
  rw [filterMap_lineNumber_of_names each, List.pairwise_map]
  exact ((ContentLine.pairwise_number 1 lines).sublist isPart).imp Int.ofNat_lt.mpr

end Diagnostic

namespace Reading

/-- All remarks but an error at the end of the document name lines of it. -/
theorem exists_nameLines (lines : List Text) :
    ∃ located ending,
      (ofLines lines).diagnostics = located ++ ending ∧
        Diagnostic.NameLines located (ContentLine.ofLines lines) ∧
        (ending = [] ∨
          ∃ earlier rejection,
            ofLines lines = .aborted earlier rejection ∧
              rejection.IsAtEnd ∧ ending = [rejection.diagnostic]) := by
  cases read : ofLines lines with
  | completed schema diagnostics =>
      rcases diagnostics_of_completed read with
        ⟨before, closing, after, split, -, isPart, shape⟩
      refine ⟨diagnostics, [], (List.append_nil _).symm, ?_, Or.inl rfl⟩
      rw [shape, split]
      refine (Diagnostic.nameLines_unknown (split ▸ isPart)).append ?_
      exact .cons ⟨rfl, nofun⟩ (Diagnostic.nameLines_trailing schema.name after)
  | aborted earlier rejection =>
      rcases earlier_of_aborted read with
        ⟨shape, atEnd | ⟨before, line, after, fault, split, rfl, isPart⟩⟩
      · refine ⟨earlier, [rejection.diagnostic], rfl, ?_, Or.inr ⟨_, _, rfl, atEnd, rfl⟩⟩
        rw [shape]
        exact Diagnostic.nameLines_unknown (ContentLine.unknown_sublist _)
      · refine ⟨_, [], (List.append_nil _).symm, ?_, Or.inl rfl⟩
        rw [diagnostics, shape, split]
        refine (Diagnostic.nameLines_unknown (split ▸ isPart)).append ?_
        refine .cons ⟨rfl, ?_⟩ (Diagnostic.nameLines_nil after)
        exact fun text quoted => (Option.some.inj quoted).symm

theorem place_of_atEnd
    {rejection : Rejection}
    (atEnd : rejection.IsAtEnd) :
    rejection.diagnostic.lineNumber = none ∧ rejection.diagnostic.line = none := by
  cases rejection with
  | atLine line fault => exact atEnd.elim
  | noBlock | unclosed name => exact ⟨rfl, rfl⟩

/-- A remark names a raw line, at its place and trimmed, or is the error at the end. -/
theorem place_of_mem
    {lines : List Text}
    {remark : Diagnostic}
    (member : remark ∈ (ofLines lines).diagnostics) :
    (∃ above raw below,
        lines = above ++ raw :: below ∧
          remark.lineNumber = some ((above.length + 1 : Nat) : Int) ∧
          ∀ text, remark.line = some text → text = Text.trim raw) ∨
      ∃ earlier rejection,
        ofLines lines = .aborted earlier rejection ∧
          rejection.IsAtEnd ∧ remark = rejection.diagnostic := by
  rcases exists_nameLines lines with ⟨located, ending, whole, nameLines, ends⟩
  rw [whole] at member
  rcases List.mem_append.mp member with inLocated | inEnding
  · rcases nameLines.exists_of_mem inLocated with ⟨line, inContent, number, quotes⟩
    rcases ContentLine.exists_raw_of_mem_ofLines inContent with ⟨above, raw, below, split, rfl⟩
    exact Or.inl ⟨above, raw, below, split, number, quotes⟩
  · rcases ends with rfl | ⟨earlier, rejection, aborted, atEnd, rfl⟩
    · cases inEnding
    · exact Or.inr ⟨earlier, rejection, aborted, atEnd, List.mem_singleton.mp inEnding⟩

theorem increasing_ofLines (lines : List Text) :
    ((ofLines lines).diagnostics.filterMap (·.lineNumber)).Pairwise (· < ·) := by
  rcases exists_nameLines lines with ⟨located, ending, whole, nameLines, ends⟩
  have unnumbered : ending.filterMap (·.lineNumber) = [] := by
    rcases ends with rfl | ⟨earlier, rejection, -, atEnd, rfl⟩
    · rfl
    · rw [List.filterMap_cons_none (place_of_atEnd atEnd).1, List.filterMap_nil]
  rw [whole, List.filterMap_append, unnumbered, List.append_nil]
  exact nameLines.increasing

/-- The remarks that a document gets, and no others. -/
structure Remarks (lines : List Text) (reading : Reading) : Prop where
  /-- Each plain line above the first brace that sets no flag is told to be unknown, and no other. -/
  unknown :
    reading.diagnostics.filter (·.isUnknown) =
      (ContentLine.unknown (ContentLine.ofLines lines)).map ContentLine.unknownRemark
  /-- Then comes the completion, at the closing line, and what follows that line is counted. -/
  completed :
    ∀ schema diagnostics,
      reading = .completed schema diagnostics →
        ∃ before closing after,
          ContentLine.ofLines lines = before ++ closing :: after ∧
            IsClosing before closing ∧
            diagnostics =
              (ContentLine.unknown (ContentLine.ofLines lines)).map ContentLine.unknownRemark ++
                { severity := .info
                  code := "ParsingCompleted"
                  message := .cat ["Parsing completed for ", schema.name]
                  lineNumber := some closing.number } ::
                  Progress.trailing schema.name after
  /-- Or else comes the only error, which is the reason. -/
  aborted :
    ∀ earlier rejection,
      reading = .aborted earlier rejection →
        ∃ error,
          reading.diagnostics =
              (ContentLine.unknown (ContentLine.ofLines lines)).map ContentLine.unknownRemark ++
                [error] ∧
            reading.diagnostics.filter (·.isError) = [error] ∧
            reading.reason? = some error.message
  increasing : (reading.diagnostics.filterMap (·.lineNumber)).Pairwise (· < ·)
  within :
    ∀ remark ∈ reading.diagnostics,
      ∀ number, remark.lineNumber = some number → 1 ≤ number ∧ number ≤ lines.length
  quoted :
    ∀ remark ∈ reading.diagnostics,
      ∀ text,
        remark.line = some text →
          ∃ above raw below,
            lines = above ++ raw :: below ∧
              remark.lineNumber = some ((above.length + 1 : Nat) : Int) ∧
              text = Text.trim raw
  unnumbered :
    ∀ remark ∈ reading.diagnostics,
      remark.lineNumber = none →
        ∃ earlier rejection,
          reading = .aborted earlier rejection ∧
            rejection.IsAtEnd ∧ remark = rejection.diagnostic

/-- The remarks on a document are exactly those that it calls for. -/
theorem remarks_ofLines (lines : List Text) : Remarks lines (ofLines lines) := by
  constructor
  case unknown =>
    cases read : ofLines lines with
    | completed schema remarks =>
        rcases diagnostics_of_completed read with ⟨_, closing, after, _, -, -, rfl⟩
        have notCompletion : (Progress.completion schema.name closing).isUnknown = false :=
          Diagnostic.isUnknown_eq_false (Or.inl rfl)
        rw [diagnostics, List.filter_append, Diagnostic.filter_isUnknown_unknown,
          List.filter_cons_of_neg (by simp [notCompletion]),
          Diagnostic.filter_isUnknown_trailing, List.append_nil]
    | aborted earlier rejection =>
        rw [diagnostics, (earlier_of_aborted read).1, List.filter_append,
          Diagnostic.filter_isUnknown_unknown,
          List.filter_cons_of_neg (by simp [Diagnostic.isUnknown_rejection]), List.filter_nil,
          List.append_nil]
  case completed =>
    intro schema diagnostics read
    rcases diagnostics_of_completed read with ⟨before, closing, after, split, isClosing, -, shape⟩
    exact ⟨before, closing, after, split, isClosing, shape⟩
  case aborted =>
    intro earlier rejection read
    have shape : (ofLines lines).diagnostics =
        (ContentLine.unknown (ContentLine.ofLines lines)).map ContentLine.unknownRemark ++
          [rejection.diagnostic] := by
      rw [read, diagnostics, (earlier_of_aborted read).1]
    refine ⟨rejection.diagnostic, shape, ?_, ?_⟩
    · rw [shape, List.filter_append, Diagnostic.filter_isError_unknown,
        List.filter_cons_of_pos rejection.isError_diagnostic]
      rfl
    · rw [read, reason?, rejection.message_diagnostic]
  case increasing => exact increasing_ofLines lines
  case within =>
    intro remark member number numbered
    rcases place_of_mem member with ⟨above, raw, below, rfl, place, -⟩ | ⟨_, _, -, atEnd, rfl⟩
    · obtain rfl := Option.some.inj (numbered.symm.trans place)
      rw [List.length_append, List.length_cons]
      omega
    · rw [(place_of_atEnd atEnd).1] at numbered
      cases numbered
  case quoted =>
    intro remark member text isQuoted
    rcases place_of_mem member with
      ⟨above, raw, below, split, place, quotes⟩ | ⟨_, _, -, atEnd, rfl⟩
    · exact ⟨above, raw, below, split, place, quotes text isQuoted⟩
    · rw [(place_of_atEnd atEnd).2] at isQuoted
      cases isQuoted
  case unnumbered =>
    intro remark member unnumbered
    rcases place_of_mem member with ⟨above, raw, below, -, place, -⟩ | atEnd
    · rw [place] at unnumbered
      cases unnumbered
    · exact atEnd

end Reading

end TaggedUnion
