import TaggedUnion.Proofs.Document.Outline

/-!
# Reading and outlines

Reading completes exactly on the contents that have an outline, with the
schema that the outline denotes, and no content has two outlines.

In one direction `Traces` ties every state of a run to the part of an outline
that has been read.  In the other the parts of an outline are run one by one,
from the directives to the line that closes the schema block.
-/

namespace TaggedUnion.Outline

/-! ## From readings to outlines -/

/-- The lines read so far are the part of an outline that leads to the given state. -/
def Traces (texts : List Text) (progress : Progress) : Prop :=
  match progress.scope with
  | .directives =>
      ∃ directives : List PlainLine,
        texts = directives.map (·.text) ∧ progress.schema = flags directives
  | .body =>
      ∃ opened : Opened, texts = opened.lines ∧ progress.schema = opened.schema
  | .variant current =>
      ∃ (opened : Opened) (opening : OpeningLine) (fields : List FieldLine),
        texts = opened.lines ++ opening.text :: fields.map (·.text) ∧
          current = ⟨opening.name, fields.map (·.field)⟩ ∧
          progress.schema = opened.schema
  | .finished | .ignoring _ _ =>
      ∃ outline : Outline, texts = outline.lines ∧ progress.schema = outline.schema

/-- A directive sets the flags that one more plain line sets. -/
theorem readDirective_flags
    (directives : List PlainLine)
    (diagnostics : List Diagnostic)
    {plain : PlainLine}
    {line : ContentLine}
    (spelled : plain.text = line.text) :
    ∃ changed,
      Progress.readDirective ⟨.directives, flags directives, diagnostics⟩ line =
        ⟨.directives, flags (directives ++ [plain]), changed⟩ := by
  have distinct : Progress.allowNullsDirective ≠ Progress.knownTypesDirective := by decide
  have wordsEqual : line.words = Text.words plain.text := by
    rw [spelled, ContentLine.words]
  unfold Progress.readDirective
  rw [wordsEqual]
  split
  · rename_i allowNulls
    exact ⟨diagnostics, by simp [flags_eq, allowNulls, distinct]⟩
  · split
    · rename_i knownTypes
      exact ⟨diagnostics, by simp [flags_eq, knownTypes, distinct.symm]⟩
    · rename_i notAllowNulls notKnownTypes
      exact ⟨_, by simp [flags_eq, notAllowNulls, notKnownTypes]; rfl⟩

/-- A step leads from one part of an outline to the next. -/
theorem Traces.step
    {texts : List Text}
    {progress next : Progress}
    {line : ContentLine}
    (traces : Traces texts progress)
    (starts : Text.startsWord line.text = true)
    (stepped : progress.step line = .ok next) :
    Traces (texts ++ [line.text]) next := by
  obtain ⟨scope, schema, diagnostics⟩ := progress
  cases scope with
  | directives =>
      obtain ⟨directives, rfl, rfl⟩ := traces
      rcases (step_directives_eq_ok_iff _ _ _ _).mp stepped with
        ⟨plain, spelled, rfl⟩ | ⟨opening, spelled, rfl⟩
      · obtain ⟨changed, equal⟩ := readDirective_flags directives diagnostics spelled
        rw [equal]
        exact ⟨directives ++ [plain], by simp [spelled], rfl⟩
      · exact ⟨⟨directives, opening, []⟩, by simp [Opened.lines, spelled],
          by simp [Opened.schema, flags]⟩
  | body =>
      obtain ⟨opened, rfl, rfl⟩ := traces
      rcases (step_body_eq_ok_iff _ _ starts _).mp stepped with
        ⟨item, spelled, rfl⟩ | ⟨opening, spelled, rfl⟩ | ⟨closing, spelled, rfl⟩
      · exact ⟨opened.add item, by simp [spelled], by simp⟩
      · exact ⟨opened, opening, [], by simp [spelled], rfl, rfl⟩
      · exact ⟨⟨opened, closing, []⟩, by simp [lines, spelled], rfl⟩
  | variant current =>
      obtain ⟨opened, opening, fields, rfl, rfl, rfl⟩ := traces
      rcases (step_variant_eq_ok_iff _ _ _ _ _).mp stepped with
        ⟨fieldLine, spelled, rfl⟩ | ⟨closing, spelled, rfl⟩
      · exact ⟨opened, opening, fields ++ [fieldLine], by simp [spelled], by simp, rfl⟩
      · exact ⟨opened.add (.block opening fields closing), by simp [Item.lines, spelled],
          by simp [Item.addTo_block]⟩
  | finished =>
      obtain ⟨outline, rfl, rfl⟩ := traces
      simp only [Progress.step, Except.ok.injEq] at stepped
      subst stepped
      exact ⟨{ outline with rest := outline.rest ++ [line.text] }, by simp [lines], rfl⟩
  | ignoring first count =>
      obtain ⟨outline, rfl, rfl⟩ := traces
      simp only [Progress.step, Except.ok.injEq] at stepped
      subst stepped
      exact ⟨{ outline with rest := outline.rest ++ [line.text] }, by simp [lines], rfl⟩

/-- A run from the start traces the lines that it has read. -/
theorem traces_run
    {lines : List ContentLine}
    {last : Progress}
    (starts : ∀ line ∈ lines, Text.startsWord line.text = true)
    (runs : Progress.run {} lines = .ok last) :
    Traces (lines.map (·.text)) last := by
  refine Progress.run_invariant
    (fun before progress => Traces (before.map (·.text)) progress) ?_ ?_ runs
  · exact ⟨[], rfl, rfl⟩
  · intro before line middle next member traces stepped
    rw [List.map_append]
    exact traces.step (starts line member) stepped

/-- The schema of a completed document is denoted by an outline of its content. -/
theorem exists_outline_of_completed
    {rawLines : List Text}
    {schema : Schema}
    {diagnostics : List Diagnostic}
    (completed : Reading.ofLines rawLines = .completed schema diagnostics) :
    ∃ outline : Outline,
      outline.lines = ContentLine.texts rawLines ∧ outline.schema = schema := by
  obtain ⟨⟨scope, reached, remarks⟩, runs, finished⟩ :=
    Progress.exists_run_of_completed completed
  have traces := traces_run (fun line => ContentLine.startsWord_of_mem_ofLines) runs
  rw [ContentLine.map_text_ofLines] at traces
  cases scope with
  | directives | body | variant current => cases finished
  | finished | ignoring first count =>
      obtain ⟨outline, spelled, denoted⟩ := traces
      simp only [Progress.finish, Reading.completed.injEq] at finished
      exact ⟨outline, spelled.symm, denoted.symm.trans finished.1⟩

/-! ## From outlines to readings -/

theorem run_directives
    {directives : List PlainLine}
    {lines : List ContentLine}
    (spelled : lines.map (·.text) = directives.map (·.text)) :
    ∃ diagnostics,
      Progress.run {} lines = .ok ⟨.directives, flags directives, diagnostics⟩ := by
  induction directives using List.reverseRecOn generalizing lines with
  | nil =>
      obtain rfl : lines = [] := by simpa using spelled
      exact ⟨[], rfl⟩
  | append_singleton directives plain induction =>
      rw [List.map_append, List.map_singleton, List.map_eq_append_iff] at spelled
      obtain ⟨before, final, rfl, beforeSpelled, finalSpelled⟩ := spelled
      obtain ⟨line, rfl, lineSpelled⟩ := List.map_eq_singleton_iff.mp finalSpelled
      obtain ⟨diagnostics, runs⟩ := induction beforeSpelled
      obtain ⟨changed, equal⟩ :=
        readDirective_flags directives diagnostics lineSpelled.symm
      refine ⟨changed, ?_⟩
      rw [Progress.run_append_of_run runs, ← equal]
      apply Progress.run_singleton_of_step
      exact (step_directives_eq_ok_iff _ _ _ _).mpr (Or.inl ⟨plain, lineSpelled.symm, rfl⟩)

theorem run_fields
    {fields : List FieldLine}
    {lines : List ContentLine}
    (name : Text)
    (schema : Schema)
    (diagnostics : List Diagnostic)
    (spelled : lines.map (·.text) = fields.map (·.text)) :
    Progress.run ⟨.variant ⟨name, []⟩, schema, diagnostics⟩ lines =
      .ok ⟨.variant ⟨name, fields.map (·.field)⟩, schema, diagnostics⟩ := by
  induction fields using List.reverseRecOn generalizing lines with
  | nil =>
      obtain rfl : lines = [] := by simpa using spelled
      rfl
  | append_singleton fields fieldLine induction =>
      rw [List.map_append, List.map_singleton, List.map_eq_append_iff] at spelled
      obtain ⟨before, final, rfl, beforeSpelled, finalSpelled⟩ := spelled
      obtain ⟨line, rfl, lineSpelled⟩ := List.map_eq_singleton_iff.mp finalSpelled
      rw [Progress.run_append_of_run (induction beforeSpelled)]
      apply Progress.run_singleton_of_step
      exact (step_variant_eq_ok_iff _ _ _ _ _).mpr
        (Or.inl ⟨fieldLine, lineSpelled.symm, by simp⟩)

/-- From the schema block, the lines of an item lead back to it. -/
theorem run_item
    {item : Item}
    {lines : List ContentLine}
    (schema : Schema)
    (diagnostics : List Diagnostic)
    (starts : ∀ line ∈ lines, Text.startsWord line.text = true)
    (spelled : lines.map (·.text) = item.lines) :
    Progress.run ⟨.body, schema, diagnostics⟩ lines =
      .ok ⟨.body, item.addTo schema, diagnostics⟩ := by
  cases item with
  | fixed plain marked =>
      obtain ⟨line, rfl, lineSpelled⟩ := List.map_eq_singleton_iff.mp spelled
      apply Progress.run_singleton_of_step
      exact (step_body_eq_ok_iff _ _ (starts line (by simp)) _).mpr
        (Or.inl ⟨.fixed plain marked, by simp [Item.lines, lineSpelled], rfl⟩)
  | member fieldLine unmarked typed =>
      obtain ⟨line, rfl, lineSpelled⟩ := List.map_eq_singleton_iff.mp spelled
      apply Progress.run_singleton_of_step
      exact (step_body_eq_ok_iff _ _ (starts line (by simp)) _).mpr
        (Or.inl ⟨.member fieldLine unmarked typed, by simp [Item.lines, lineSpelled], rfl⟩)
  | block opening fields closing =>
      obtain ⟨opened, inner, rfl, openedSpelled, innerSpelled⟩ :=
        List.map_eq_append_iff.mp spelled
      obtain ⟨first, own, rfl, firstSpelled, ownSpelled⟩ :=
        List.map_eq_cons_iff.mp openedSpelled
      obtain ⟨final, rfl, finalSpelled⟩ := List.map_eq_singleton_iff.mp innerSpelled
      have enters :
          Progress.run ⟨.body, schema, diagnostics⟩ [first] =
            .ok ⟨.variant ⟨opening.name, []⟩, schema, diagnostics⟩ := by
        apply Progress.run_singleton_of_step
        exact (step_body_eq_ok_iff _ _ (starts first (by simp)) _).mpr
          (Or.inr (Or.inl ⟨opening, firstSpelled.symm, rfl⟩))
      rw [← List.singleton_append, List.append_assoc,
        Progress.run_append_of_run enters,
        Progress.run_append_of_run (run_fields _ _ _ ownSpelled), Item.addTo_block]
      apply Progress.run_singleton_of_step
      exact (step_variant_eq_ok_iff _ _ _ _ _).mpr
        (Or.inr ⟨closing, finalSpelled.symm, rfl⟩)

/-- The lines up to a place in the schema block lead to the schema declared there. -/
theorem run_opened
    {opened : Opened}
    {lines : List ContentLine}
    (starts : ∀ line ∈ lines, Text.startsWord line.text = true)
    (spelled : lines.map (·.text) = opened.lines) :
    ∃ diagnostics,
      Progress.run {} lines = .ok ⟨.body, opened.schema, diagnostics⟩ := by
  obtain ⟨directives, opening, items⟩ := opened
  induction items using List.reverseRecOn generalizing lines with
  | nil =>
      obtain ⟨before, final, rfl, beforeSpelled, finalSpelled⟩ :=
        List.map_eq_append_iff.mp spelled
      obtain ⟨line, rfl, lineSpelled⟩ := List.map_eq_singleton_iff.mp finalSpelled
      obtain ⟨diagnostics, runs⟩ := run_directives beforeSpelled
      refine ⟨diagnostics, ?_⟩
      rw [Progress.run_append_of_run runs]
      apply Progress.run_singleton_of_step
      exact (step_directives_eq_ok_iff _ _ _ _).mpr
        (Or.inr ⟨opening, lineSpelled.symm, by simp [Opened.schema, flags]⟩)
  | append_singleton items item induction =>
      have whole :
          (⟨directives, opening, items ++ [item]⟩ : Opened) =
            Opened.add ⟨directives, opening, items⟩ item :=
        rfl
      rw [whole, Opened.lines_add, List.map_eq_append_iff] at spelled
      obtain ⟨before, own, rfl, beforeSpelled, ownSpelled⟩ := spelled
      obtain ⟨diagnostics, runs⟩ :=
        induction (fun line member => starts line (by simp [member])) beforeSpelled
      refine ⟨diagnostics, ?_⟩
      rw [whole, Opened.schema_add, Progress.run_append_of_run runs]
      exact run_item _ _ (fun line member => starts line (by simp [member])) ownSpelled

/-- A document whose content has an outline completes with what it denotes. -/
theorem completed_of_outline
    {rawLines : List Text}
    {outline : Outline}
    (spelled : outline.lines = ContentLine.texts rawLines) :
    ∃ diagnostics, Reading.ofLines rawLines = .completed outline.schema diagnostics := by
  have starts (line : ContentLine) (member : line ∈ ContentLine.ofLines rawLines) :=
    ContentLine.startsWord_of_mem_ofLines member
  have numbered := ContentLine.map_text_ofLines rawLines
  rw [Reading.ofLines]
  rw [← spelled, lines, List.map_eq_append_iff] at numbered
  obtain ⟨before, after, split, beforeSpelled, afterSpelled⟩ := numbered
  obtain ⟨line, rest, rfl, lineSpelled, -⟩ := List.map_eq_cons_iff.mp afterSpelled
  rw [split] at starts ⊢
  obtain ⟨diagnostics, runs⟩ :=
    run_opened (fun line member => starts line (by simp [member])) beforeSpelled
  have closes :=
    (step_body_eq_ok_iff outline.toOpened.schema diagnostics
      (starts line (by simp)) _).mpr
        (Or.inr (Or.inr ⟨outline.closing, lineSpelled.symm, rfl⟩))
  rw [Progress.read_append_of_run runs, Progress.read, closes]
  exact ⟨_, Progress.read_finished _ _ rest⟩

/-! ## One outline at most -/

theorem plainLine_map_injective :
    Function.Injective (List.map PlainLine.text) :=
  List.map_injective_iff.mpr fun _ _ => PlainLine.ext

theorem fieldLine_map_injective :
    Function.Injective (List.map FieldLine.text) :=
  List.map_injective_iff.mpr fun _ _ => FieldLine.ext

theorem not_isPlain_of_opens {text : Text} (opens : Opens text) : ¬ IsPlain text :=
  fun plain => plain.1 opens

theorem not_isPlain_of_closes {text : Text} (closes : Closes text) : ¬ IsPlain text :=
  fun plain => plain.2 closes

theorem not_closes_of_opens {text : Text} (opens : Opens text) : ¬ Closes text := by
  intro closes
  rw [Opens] at opens
  rw [Closes, opens] at closes
  exact absurd closes (by decide)

/-- No item begins with a line that closes a block. -/
theorem Item.exists_lines_eq_cons (item : Item) :
    ∃ first more, item.lines = first :: more ∧ ¬ Closes first := by
  cases item with
  | fixed line marked => exact ⟨line.text, [], rfl, line.plain.2⟩
  | member line unmarked typed => exact ⟨line.text, [], rfl, line.plain.2⟩
  | block opening fields closing =>
      exact ⟨opening.text, _, rfl, not_closes_of_opens opening.opens⟩

/-- Where the same lines begin with an item in two ways, the items are the same. -/
theorem Item.lines_append_inj
    {left right : Item}
    {leftRest rightRest : List Text}
    (equal : left.lines ++ leftRest = right.lines ++ rightRest) :
    left = right ∧ leftRest = rightRest := by
  cases left with
  | fixed leftLine leftMarked =>
      cases right with
      | fixed rightLine rightMarked =>
          obtain ⟨textEqual, restEqual⟩ := List.cons.inj equal
          obtain rfl := PlainLine.ext textEqual
          exact ⟨rfl, restEqual⟩
      | member rightLine unmarked typed =>
          obtain ⟨textEqual, -⟩ := List.cons.inj equal
          exact (unmarked (textEqual ▸ leftMarked)).elim
      | block opening fields closing =>
          obtain ⟨textEqual, -⟩ := List.cons.inj equal
          exact (leftLine.plain.1 (textEqual ▸ opening.opens)).elim
  | member leftLine leftUnmarked leftTyped =>
      cases right with
      | fixed rightLine marked =>
          obtain ⟨textEqual, -⟩ := List.cons.inj equal
          exact (leftUnmarked (textEqual ▸ marked)).elim
      | member rightLine rightUnmarked rightTyped =>
          obtain ⟨textEqual, restEqual⟩ := List.cons.inj equal
          obtain rfl := FieldLine.ext textEqual
          exact ⟨rfl, restEqual⟩
      | block opening fields closing =>
          obtain ⟨textEqual, -⟩ := List.cons.inj equal
          exact (leftLine.plain.1 (textEqual ▸ opening.opens)).elim
  | block opening fields closing =>
      cases right with
      | fixed rightLine marked =>
          obtain ⟨textEqual, -⟩ := List.cons.inj equal
          exact (rightLine.plain.1 (textEqual ▸ opening.opens)).elim
      | member rightLine unmarked typed =>
          obtain ⟨textEqual, -⟩ := List.cons.inj equal
          exact (rightLine.plain.1 (textEqual ▸ opening.opens)).elim
      | block otherOpening otherFields otherClosing =>
          simp only [Item.lines, List.cons_append, List.append_assoc,
            List.nil_append] at equal
          obtain ⟨openingEqual, remaining⟩ := List.cons.inj equal
          obtain rfl := OpeningLine.ext openingEqual
          -- The fields of a block end at its first line that is not plain.
          obtain ⟨fieldsEqual, closingEqual, restEqual⟩ :=
            append_mark_inj IsPlain
              (by simpa using fun line _ => FieldLine.plain line)
              (by simpa using fun line _ => FieldLine.plain line)
              (not_isPlain_of_closes closing.closes)
              (not_isPlain_of_closes otherClosing.closes)
              remaining
          obtain rfl := fieldLine_map_injective fieldsEqual
          obtain rfl := ClosingLine.ext closingEqual
          exact ⟨rfl, restEqual⟩

/-- The items of a block are determined by its lines, and so is the end of the block. -/
theorem items_append_inj
    {left right : List Item}
    {leftClosing rightClosing : ClosingLine}
    {leftRest rightRest : List Text}
    (equal :
      left.flatMap Item.lines ++ leftClosing.text :: leftRest =
        right.flatMap Item.lines ++ rightClosing.text :: rightRest) :
    left = right ∧ leftClosing = rightClosing ∧ leftRest = rightRest := by
  induction left generalizing right with
  | nil =>
      cases right with
      | nil =>
          obtain ⟨closingEqual, restEqual⟩ := List.cons.inj equal
          exact ⟨rfl, ClosingLine.ext closingEqual, restEqual⟩
      | cons item right =>
          obtain ⟨first, more, lines, continues⟩ := item.exists_lines_eq_cons
          rw [List.flatMap_cons, lines] at equal
          obtain ⟨rfl, -⟩ := List.cons.inj equal
          exact (continues leftClosing.closes).elim
  | cons item left induction =>
      cases right with
      | nil =>
          obtain ⟨first, more, lines, continues⟩ := item.exists_lines_eq_cons
          rw [List.flatMap_cons, lines] at equal
          obtain ⟨rfl, -⟩ := List.cons.inj equal
          exact (continues rightClosing.closes).elim
      | cons other right =>
          simp only [List.flatMap_cons, List.append_assoc] at equal
          obtain ⟨rfl, remaining⟩ := Item.lines_append_inj equal
          obtain ⟨rfl, closingEqual, restEqual⟩ := induction remaining
          exact ⟨rfl, closingEqual, restEqual⟩

/-- No content has two outlines. -/
theorem lines_injective : Function.Injective lines := by
  rintro ⟨⟨directives, opening, items⟩, closing, rest⟩
    ⟨⟨otherDirectives, otherOpening, otherItems⟩, otherClosing, otherRest⟩ equal
  simp only [lines, Opened.lines, List.append_assoc, List.cons_append] at equal
  obtain ⟨directivesEqual, openingEqual, remaining⟩ :=
    append_mark_inj IsPlain
      (by simpa using fun line _ => PlainLine.plain line)
      (by simpa using fun line _ => PlainLine.plain line)
      (not_isPlain_of_opens opening.opens)
      (not_isPlain_of_opens otherOpening.opens)
      equal
  obtain rfl := plainLine_map_injective directivesEqual
  obtain rfl := OpeningLine.ext openingEqual
  obtain ⟨rfl, rfl, rfl⟩ := items_append_inj remaining
  rfl

/--
Reading completes exactly on the documents whose content has an outline.
The outline is then the only one, and the schema is the one that it denotes.
-/
theorem completes_iff_outlined (rawLines : List Text) :
    ((∃ schema diagnostics, Reading.ofLines rawLines = .completed schema diagnostics) ↔
        ∃ outline : Outline, outline.lines = ContentLine.texts rawLines) ∧
      ∀ outline : Outline,
        outline.lines = ContentLine.texts rawLines →
          (∀ other : Outline,
            other.lines = ContentLine.texts rawLines → other = outline) ∧
          ∃ diagnostics,
            Reading.ofLines rawLines = .completed outline.schema diagnostics := by
  refine ⟨⟨?_, ?_⟩, ?_⟩
  · rintro ⟨schema, diagnostics, completed⟩
    obtain ⟨outline, spelled, -⟩ := exists_outline_of_completed completed
    exact ⟨outline, spelled⟩
  · rintro ⟨outline, spelled⟩
    exact ⟨outline.schema, completed_of_outline spelled⟩
  · intro outline spelled
    refine ⟨?_, completed_of_outline spelled⟩
    intro other otherSpelled
    exact lines_injective (otherSpelled.trans spelled.symm)

end TaggedUnion.Outline
