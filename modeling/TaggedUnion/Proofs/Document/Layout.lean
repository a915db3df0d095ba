import TaggedUnion.Generator
import TaggedUnion.Proofs.Document.Run
import Mathlib.Data.List.Forall2
import Mathlib.Logic.Relation

/-!
# The layout of documents

Blank lines, comments, indentation and the width of the gaps between words are
layout.  Two documents have the same content when their content lines agree but
for such gaps; a line that is copied into the base class must be the same to the
character.

A reading names lines, by number and by text, so that two layouts of one content
are told apart by their remarks.  The gist of a reading leaves these out, and it
is the same for all of them.  Reading is therefore compared step by step: lines
that are alike lead from progress with one gist to progress with one gist.
-/

namespace TaggedUnion

namespace Text

/-! ## Gaps between words -/

/-- The text with a single space in place of every run of blanks. -/
def squeeze : Text → Text
  | [] => []
  | character :: rest =>
      if isBlank character then
        if rest.head?.any isBlank then squeeze rest else ' ' :: squeeze rest
      else
        character :: squeeze rest

theorem squeeze_cons_of_visible
    {character : Char}
    (visible : isBlank character = false)
    (rest : Text) :
    squeeze (character :: rest) = character :: squeeze rest := by
  rw [squeeze, if_neg (by simp [visible])]

@[simp]
theorem startsWord_squeeze (text : Text) : startsWord (squeeze text) = startsWord text := by
  induction text with
  | nil => rfl
  | cons character rest induction =>
      cases blank : isBlank character with
      | false => rw [squeeze_cons_of_visible blank, startsWord, startsWord]
      | true =>
          rw [squeeze, if_pos blank, startsWord, blank]
          split
          · rename_i continues
            rw [induction]
            cases rest with
            | nil => rfl
            | cons next more => simpa [startsWord] using continues
          · rfl

/-- The words of a text do not depend on the gaps between them. -/
@[simp]
theorem words_squeeze (text : Text) : words (squeeze text) = words text := by
  induction text with
  | nil => rfl
  | cons character rest induction =>
      cases blank : isBlank character with
      | false =>
          rw [squeeze_cons_of_visible blank, words, words, startsWord_squeeze, induction]
      | true =>
          have spaceIsBlank : isBlank ' ' = true := rfl
          rw [squeeze, if_pos blank, words, if_pos blank]
          split
          · exact induction
          · rw [words, if_pos spaceIsBlank, induction]

theorem words_eq_of_squeeze_eq
    {left right : Text}
    (same : squeeze left = squeeze right) :
    words left = words right := by
  rw [← words_squeeze left, same, words_squeeze]

theorem head?_squeeze
    {text : Text}
    (starts : startsWord text = true) :
    (squeeze text).head? = text.head? := by
  cases text with
  | nil => rfl
  | cons character rest =>
      have visible : isBlank character = false := by simpa [startsWord] using starts
      rw [squeeze_cons_of_visible visible]
      rfl

/-- Trimmed text has no gap at its start to be squeezed. -/
theorem head?_squeeze_trim (text : Text) :
    (squeeze (trim text)).head? = (trim text).head? := by
  by_cases empty : trim text = []
  · rw [empty]
    rfl
  · exact head?_squeeze (startsWord_trim empty)

end Text

namespace Layout

/-! ## The same content in two layouts -/

/--
Two trimmed lines that differ at most in the gaps between their words, and not
even there when one of them begins with an ampersand.
-/
structure SameLine (left right : Text) : Prop where
  spaced : Text.squeeze left = Text.squeeze right
  fixed : left.head? = some '&' ∨ right.head? = some '&' → left = right

instance (left right : Text) : Decidable (SameLine left right) :=
  decidable_of_iff
    (Text.squeeze left = Text.squeeze right ∧
      (left.head? = some '&' ∨ right.head? = some '&' → left = right))
    ⟨fun ⟨spaced, fixed⟩ => ⟨spaced, fixed⟩, fun same => ⟨same.spaced, same.fixed⟩⟩

/-- Two documents whose content lines are the same one by one. -/
def SameContent (left right : List Text) : Prop :=
  List.Forall₂ SameLine (ContentLine.texts left) (ContentLine.texts right)

theorem sameLine_refl (text : Text) : SameLine text text :=
  ⟨rfl, fun _ => rfl⟩

/-- Documents with equal content lines have the same content. -/
theorem sameContent_of_texts_eq
    {left right : List Text}
    (equal : ContentLine.texts left = ContentLine.texts right) :
    SameContent left right := by
  rw [SameContent, equal]
  exact List.forall₂_same.mpr fun text _ => sameLine_refl text

/-! ## Changes of layout -/

/-- One change of a document's layout. -/
inductive Edit : List Text → List Text → Prop where
  /-- A blank line or a comment is inserted. -/
  | insert
      (above below : List Text)
      {raw : Text}
      (skipped : ContentLine.isContent (Text.trim raw) = false) :
      Edit (above ++ below) (above ++ raw :: below)
  /-- The blanks around a line change. -/
  | indent
      (above below : List Text)
      {raw other : Text}
      (same : Text.trim raw = Text.trim other) :
      Edit (above ++ raw :: below) (above ++ other :: below)
  /-- The gaps inside a line change, which is none to be copied. -/
  | align
      (above below : List Text)
      {raw other : Text}
      (same : Text.squeeze (Text.trim raw) = Text.squeeze (Text.trim other))
      (unmarked : (Text.trim raw).head? ≠ some '&') :
      Edit (above ++ raw :: below) (above ++ other :: below)

theorem texts_append (above below : List Text) :
    ContentLine.texts (above ++ below) =
      ContentLine.texts above ++ ContentLine.texts below := by
  simp [ContentLine.texts]

theorem texts_cons (raw : Text) (below : List Text) :
    ContentLine.texts (raw :: below) =
      if ContentLine.isContent (Text.trim raw) then
        Text.trim raw :: ContentLine.texts below
      else
        ContentLine.texts below := by
  simp [ContentLine.texts, List.filter_cons]

/-- Whether a line is content shows in its first character. -/
theorem isContent_eq_of_head?_eq
    {left right : Text}
    (equal : left.head? = right.head?) :
    ContentLine.isContent left = ContentLine.isContent right := by
  cases left with
  | nil =>
      rw [List.head?_eq_none_iff.mp equal.symm]
  | cons character rest =>
      rcases List.head?_eq_some_iff.mp equal.symm with ⟨others, rfl⟩
      rfl

theorem Edit.sameContent
    {left right : List Text}
    (edit : Edit left right) :
    SameContent left right := by
  cases edit with
  | insert above below skipped =>
      apply sameContent_of_texts_eq
      rw [texts_append, texts_append, texts_cons, if_neg (by simp [skipped])]
  | indent above below same =>
      apply sameContent_of_texts_eq
      rw [texts_append, texts_append, texts_cons, texts_cons, same]
  | align above below same unmarked =>
      rename_i raw other
      have heads : (Text.trim raw).head? = (Text.trim other).head? := by
        rw [← Text.head?_squeeze_trim raw, same, Text.head?_squeeze_trim]
      have sameLine : SameLine (Text.trim raw) (Text.trim other) := by
        refine ⟨same, ?_⟩
        rintro (marked | marked)
        · exact (unmarked marked).elim
        · exact (unmarked (heads.trans marked)).elim
      have unchanged (lines : List Text) : SameContent lines lines :=
        sameContent_of_texts_eq rfl
      rw [SameContent, texts_append, texts_append, texts_cons, texts_cons,
        isContent_eq_of_head?_eq heads]
      apply List.rel_append (unchanged above)
      split
      · exact .cons sameLine (unchanged below)
      · exact unchanged below

end Layout

/-! ## What a reading says without naming lines -/

/-- A remark without the place it was made at. -/
def Diagnostic.gist (remark : Diagnostic) : Severity × Text × Text :=
  (remark.severity, remark.code, remark.message)

namespace Reading

/-- Whether the document has a schema. -/
def isCompleted : Reading → Bool
  | completed _ _ => true
  | aborted _ _ => false

/-- What is said of a document without naming any of its lines. -/
structure Gist where
  isCompleted : Bool
  reason? : Option Text
  schema? : Option Schema
  remarks : List (Severity × Text × Text)
deriving DecidableEq

/-- The gist of a reading. -/
def gist (reading : Reading) : Gist :=
  ⟨reading.isCompleted, reading.reason?, reading.schema?,
    reading.diagnostics.map Diagnostic.gist⟩

theorem gist_completed (schema : Schema) (diagnostics : List Diagnostic) :
    (completed schema diagnostics).gist =
      ⟨true, none, some schema, diagnostics.map Diagnostic.gist⟩ :=
  rfl

theorem gist_aborted (earlier : List Diagnostic) (rejection : Rejection) :
    (aborted earlier rejection).gist =
      ⟨false, some rejection.message, none,
        earlier.map Diagnostic.gist ++ [rejection.diagnostic.gist]⟩ := by
  rw [gist, diagnostics, List.map_append]
  rfl

end Reading

/-- The scope without the line that was the first to be ignored. -/
def Scope.withoutLine : Scope → Scope
  | ignoring _ count => ignoring ⟨0, []⟩ count
  | scope => scope

namespace Progress

/-- What has been read, without the lines that were named on the way. -/
def gist (progress : Progress) : Scope × Schema × List (Severity × Text × Text) :=
  (progress.scope.withoutLine, progress.schema, progress.diagnostics.map Diagnostic.gist)

/-! ## Lines that are read alike -/

/-- Two lines of the same words, and of the same text if they are to be copied. -/
structure Alike (left right : ContentLine) : Prop where
  words : left.words = right.words
  head : left.text.head? = right.text.head?
  fixed : left.text.head? = some '&' → left.text = right.text

variable {left right : ContentLine}

theorem Alike.marker (alike : Alike left right) : left.marker = right.marker := by
  rw [ContentLine.marker, alike.words, ContentLine.marker]

theorem Alike.blockName (alike : Alike left right) : blockName left = blockName right := by
  rw [Progress.blockName, alike.words, Progress.blockName]

/-- In the schema block, lines that are alike declare the same. -/
theorem Alike.readMember
    (alike : Alike left right)
    (schema : Schema) :
    readMember schema left = readMember schema right := by
  by_cases marked : left.text.head? = some '&'
  · rw [Progress.readMember, alike.words, alike.fixed marked, Progress.readMember]
  · unfold Progress.readMember
    rw [alike.words]
    split
    · rename_i fixed leftIs
      exact (marked (by simp [leftIs])).elim
    · rename_i rest leftIs
      have optional : right.text.head? = some '%' := by rw [← alike.head, leftIs]; rfl
      rcases List.head?_eq_some_iff.mp optional with ⟨others, rightIs⟩
      rw [rightIs]
      rfl
    · rename_i notFixed notOptional
      split
      · rename_i fixed rightIs
        exact (marked (by rw [alike.head, rightIs]; rfl)).elim
      · rename_i rest rightIs
        have optional : left.text.head? = some '%' := by rw [alike.head, rightIs]; rfl
        rcases List.head?_eq_some_iff.mp optional with ⟨others, leftIs⟩
        exact (notOptional others leftIs).elim
      · rfl

theorem gist_readDirective
    {first second : Progress}
    (same : first.gist = second.gist)
    (alike : Alike left right) :
    (first.readDirective left).gist = (second.readDirective right).gist := by
  simp only [gist, Prod.mk.injEq] at same
  unfold readDirective
  rw [alike.words]
  split
  · simp [gist, same]
  · split
    · simp [gist, same]
    · simp [gist, same, Diagnostic.gist, unknownDirective]

/-- Scopes that agree but for a line are the same or both past the schema block. -/
theorem eq_or_ignoring_of_withoutLine_eq
    {first second : Scope}
    (same : first.withoutLine = second.withoutLine) :
    first = second ∨
      ∃ early late count, first = .ignoring early count ∧ second = .ignoring late count := by
  cases first <;> cases second <;> simp_all [Scope.withoutLine]

/-- Lines that are alike lead from one gist to one gist, or are refused for one fault. -/
theorem gist_step
    {first second : Progress}
    (same : first.gist = second.gist)
    (alike : Alike left right) :
    (first.step left).map gist = (second.step right).map gist := by
  have directive := gist_readDirective same alike
  rcases first with ⟨firstScope, schema, firstRemarks⟩
  rcases second with ⟨secondScope, other, secondRemarks⟩
  simp only [gist, Prod.mk.injEq] at same
  rcases same with ⟨sameScope, rfl, sameRemarks⟩
  rcases eq_or_ignoring_of_withoutLine_eq sameScope with
    rfl | ⟨early, late, count, rfl, rfl⟩
  · cases firstScope with
    | finished | ignoring line count =>
        simp [step, gist, Except.map, Scope.withoutLine, sameRemarks]
    | directives =>
        cases marked : right.marker with
        | opens =>
            simp only [step, alike.marker, marked, alike.blockName]
            cases blockName right <;> simp [bind, Except.bind, Except.map, gist, sameRemarks]
        | closes => simp [step, alike.marker, marked, Except.map]
        | plain => simpa [step, alike.marker, marked, Except.map] using directive
    | body =>
        cases marked : right.marker with
        | opens =>
            simp only [step, alike.marker, marked, alike.blockName]
            cases blockName right <;> simp [bind, Except.bind, Except.map, gist, sameRemarks]
        | closes =>
            simp [step, alike.marker, marked, Except.map, gist, sameRemarks, completion,
              Diagnostic.gist]
        | plain =>
            simp only [step, alike.marker, marked, alike.readMember]
            cases readMember schema right <;>
              simp [bind, Except.bind, Except.map, gist, sameRemarks]
    | variant current =>
        cases marked : right.marker with
        | opens => simp [step, alike.marker, marked, Except.map]
        | closes => simp [step, alike.marker, marked, Except.map, gist, sameRemarks]
        | plain =>
            simp only [step, alike.marker, marked, alike.words]
            cases readField right.words <;>
              simp [bind, Except.bind, Except.map, gist, sameRemarks]
  · simp [step, gist, Except.map, Scope.withoutLine, sameRemarks]

theorem gist_finish
    {first second : Progress}
    (same : first.gist = second.gist) :
    first.finish.gist = second.finish.gist := by
  rcases first with ⟨firstScope, schema, firstRemarks⟩
  rcases second with ⟨secondScope, other, secondRemarks⟩
  simp only [gist, Prod.mk.injEq] at same
  rcases same with ⟨sameScope, rfl, sameRemarks⟩
  rcases eq_or_ignoring_of_withoutLine_eq sameScope with
    rfl | ⟨early, late, count, rfl, rfl⟩
  · cases firstScope <;>
      simp [finish, Reading.gist_completed, Reading.gist_aborted, sameRemarks]
  · simp [finish, Reading.gist_completed, sameRemarks, ignoredLines, Diagnostic.gist]

/-- Content that is alike line by line is read with one gist. -/
theorem gist_read
    {first second : Progress}
    {leftLines rightLines : List ContentLine}
    (same : first.gist = second.gist)
    (alike : List.Forall₂ Alike leftLines rightLines) :
    (first.read leftLines).gist = (second.read rightLines).gist := by
  induction alike generalizing first second with
  | nil => exact gist_finish same
  | cons headsAlike _ induction =>
      rename_i left right _ _ _
      have stepped := gist_step same headsAlike
      rw [read, read]
      cases early : first.step left with
      | ok next =>
          cases late : second.step right with
          | ok other =>
              rw [early, late] at stepped
              exact induction (Except.ok.inj stepped)
          | error fault =>
              rw [early, late] at stepped
              cases stepped
      | error fault =>
          cases late : second.step right with
          | ok other =>
              rw [early, late] at stepped
              cases stepped
          | error other =>
              rw [early, late] at stepped
              obtain rfl := Except.error.inj stepped
              have sameRemarks : first.diagnostics.map Diagnostic.gist =
                  second.diagnostics.map Diagnostic.gist :=
                congrArg (·.2.2) same
              simp only [Reading.gist_aborted, sameRemarks]
              rfl

end Progress

namespace Layout

/-! ## Layout and reading -/

theorem SameLine.alike
    {left right : ContentLine}
    (same : SameLine left.text right.text)
    (leftStarts : Text.startsWord left.text = true)
    (rightStarts : Text.startsWord right.text = true) :
    Progress.Alike left right where
  words := Text.words_eq_of_squeeze_eq same.spaced
  head := by
    rw [← Text.head?_squeeze leftStarts, same.spaced, Text.head?_squeeze rightStarts]
  fixed marked := same.fixed (Or.inl marked)

theorem forall₂_alike
    {left right : List ContentLine}
    (same : List.Forall₂ (fun line other => SameLine line.text other.text) left right)
    (leftStarts : ∀ line ∈ left, Text.startsWord line.text = true)
    (rightStarts : ∀ line ∈ right, Text.startsWord line.text = true) :
    List.Forall₂ Progress.Alike left right := by
  induction same with
  | nil => exact .nil
  | cons sameLine _ induction =>
      rw [List.forall_mem_cons] at leftStarts rightStarts
      exact .cons (sameLine.alike leftStarts.1 rightStarts.1)
        (induction leftStarts.2 rightStarts.2)

/-- The content lines of documents with the same content are read alike, however numbered. -/
theorem SameContent.alike
    {left right : List Text}
    (same : SameContent left right)
    (first second : Nat) :
    List.Forall₂ Progress.Alike
      (ContentLine.numberedFrom first left) (ContentLine.numberedFrom second right) := by
  rw [SameContent, ← ContentLine.map_text_numberedFrom first,
    ← ContentLine.map_text_numberedFrom second, List.forall₂_map_left_iff,
    List.forall₂_map_right_iff] at same
  exact forall₂_alike same
    (fun _ => ContentLine.startsWord_of_mem_numberedFrom)
    (fun _ => ContentLine.startsWord_of_mem_numberedFrom)

/-- What documents come to, but for the lines that are named on the way. -/
structure SameOutcome (left right : List Text) : Prop where
  reading : (Reading.ofLines left).gist = (Reading.ofLines right).gist
  artifact :
    ∀ (generator : Generator) (source : Option Text),
      (generator.ofLines source left).map (fun made => (made.artifact?, made.outputName?)) =
        (generator.ofLines source right).map (fun made => (made.artifact?, made.outputName?))

/-- The artifact is made from the schema. -/
theorem artifact_eq_of_schema?_eq
    {left right : Reading}
    (same : left.schema? = right.schema?)
    (generator : Generator)
    (source : Option Text) :
    (generator.ofReading source left).map (fun made => (made.artifact?, made.outputName?)) =
      (generator.ofReading source right).map (fun made => (made.artifact?, made.outputName?)) := by
  cases left with
  | aborted earlier rejection =>
      cases right with
      | aborted others rejection => rfl
      | completed schema diagnostics => cases same
  | completed schema diagnostics =>
      cases right with
      | aborted others rejection => cases same
      | completed other others =>
          obtain rfl := Option.some.inj same
          simp only [Generator.ofReading]
          split
          · rfl
          · cases Generator.outputName generator.settings schema with
            | error error => rfl
            | ok name => rfl

theorem SameContent.sameOutcome
    {left right : List Text}
    (same : SameContent left right) :
    SameOutcome left right := by
  have reading : (Reading.ofLines left).gist = (Reading.ofLines right).gist :=
    Progress.gist_read rfl (same.alike 1 1)
  exact ⟨reading, artifact_eq_of_schema?_eq (congrArg Reading.Gist.schema? reading)⟩

/--
Two documents with the same content have the same gist and the same artifact.
So have two documents that changes of layout lead from one to the other.
-/
theorem outcome_independent_of_layout
    {left right : List Text}
    (laidOut : SameContent left right ∨ Relation.EqvGen Edit left right) :
    SameOutcome left right := by
  rcases laidOut with same | edited
  · exact same.sameOutcome
  · induction edited with
    | rel _ _ edit => exact edit.sameContent.sameOutcome
    | refl _ => exact ⟨rfl, fun _ _ => rfl⟩
    | symm _ _ _ same =>
        exact ⟨same.reading.symm, fun generator source => (same.artifact generator source).symm⟩
    | trans _ _ _ _ _ first second =>
        exact ⟨first.reading.trans second.reading, fun generator source =>
          (first.artifact generator source).trans (second.artifact generator source)⟩

/-- A document without a blank that it could do without. -/
def closeLayout : List Text :=
  ["Set KnownTypes", "Shape \x7b", "&int  Sides() => 0;", "float side", "\x7d", "Other \x7d"]

/-- The same content with comments, blank lines, indentation and gaps of many kinds. -/
def wideLayout : List Text :=
  ["# A shape.", "Set\tKnownTypes", "", "Shape\u3000 \x7b", "  &int  Sides() => 0;\x0b",
    "\t# Its sides.", "\tfloat\u2003\tside", "\x7d", "\u0085", "  Other   \x7d  "]

theorem sameContent_closeLayout : SameContent closeLayout wideLayout := by
  have close : ContentLine.texts closeLayout = closeLayout := by decide
  have wide : ContentLine.texts wideLayout =
      ["Set\tKnownTypes", "Shape\u3000 \x7b", "&int  Sides() => 0;", "float\u2003\tside",
        "\x7d", "Other   \x7d"] := by
    decide
  rw [SameContent, close, wide]
  exact .cons (by decide) (.cons (by decide) (.cons (by decide) (.cons (by decide)
    (.cons (by decide) (.cons (by decide) .nil)))))

/-- Both documents have the schema of the shape, and the same artifact. -/
theorem outcome_closeLayout :
    SameContent closeLayout wideLayout ∧ SameOutcome closeLayout wideLayout :=
  ⟨sameContent_closeLayout, outcome_independent_of_layout (Or.inl sameContent_closeLayout)⟩

end Layout

end TaggedUnion
