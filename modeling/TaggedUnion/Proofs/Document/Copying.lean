import TaggedUnion.Proofs.Document.Canonical
import TaggedUnion.Proofs.Document.Extension
import TaggedUnion.Proofs.Document.Layout

/-!
# Lines copied into the base class

A line of the schema block that begins with an ampersand is meant to be copied.
What it does is decided by its last word first: where this is a brace, the line
opens or closes a block like any other.  All the others are copied, whatever they
say, and leave no trace in the schema but the copy.

That a copy is the only trace is shown by reading with other copies in front:
`Progress.copying` puts lines before the fixed lines of a schema, and reading
carries them along to the end.
-/

namespace TaggedUnion

/-! ## Lines that are copied -/

/-- The line is meant to be copied: it begins with an ampersand. -/
def ContentLine.isMarked (line : ContentLine) : Bool :=
  line.text.head? = some '&'

/-- The line is copied if it is read in the schema block: its last word is no brace. -/
def ContentLine.isCopied (line : ContentLine) : Bool :=
  line.isMarked && line.marker = .plain

namespace Progress

/-- The lines that are read in the schema block, outside the blocks of variants. -/
def blockLines (progress : Progress) : List ContentLine → List ContentLine
  | [] => []
  | line :: rest =>
      match progress.step line with
      | .error _ => []
      | .ok next =>
          if progress.scope = .body then line :: next.blockLines rest
          else next.blockLines rest

/-- What is copied of the lines, without the ampersands. -/
def copies (progress : Progress) (content : List ContentLine) : List Text :=
  ((progress.blockLines content).filter (·.isCopied)).map (·.text.tail)

theorem readDirective_fixedLines (progress : Progress) (line : ContentLine) :
    (progress.readDirective line).schema.fixedLines = progress.schema.fixedLines := by
  unfold readDirective
  split
  · rfl
  · split <;> rfl

theorem isCopied_eq_false_of_opens
    {line : ContentLine}
    (opens : Outline.Opens line.text) :
    line.isCopied = false := by
  simp [ContentLine.isCopied, (Outline.marker_eq_opens_iff line).mpr opens]

theorem isCopied_eq_false_of_closes
    {line : ContentLine}
    (closes : Outline.Closes line.text) :
    line.isCopied = false := by
  simp [ContentLine.isCopied, (Outline.marker_eq_closes_iff line).mpr closes]

/-- An item of a single line is copied if that line is. -/
theorem fixedLine?_of_lines
    {item : Outline.Item}
    {line : ContentLine}
    (spelled : item.lines = [line.text]) :
    item.fixedLine?.toList = if line.isCopied then [line.text.tail] else [] := by
  have plain : line.marker = .plain :=
    (Outline.marker_eq_plain_iff line).mpr (Outline.Item.plain_of_lines spelled)
  cases item with
  | fixed plainLine marked =>
      obtain ⟨textEqual, -⟩ := List.cons.inj spelled
      have copied : line.isCopied = true := by
        simp [ContentLine.isCopied, ContentLine.isMarked, ← textEqual, marked, plain]
      rw [if_pos copied, ← textEqual]
      rfl
  | member fieldLine unmarked typed =>
      obtain ⟨textEqual, -⟩ := List.cons.inj spelled
      have notCopied : line.isCopied = false := by
        simp [ContentLine.isCopied, ContentLine.isMarked, ← textEqual, unmarked]
      rw [if_neg (by simp [notCopied])]
      rfl
  | block opening fields closing => simp [Outline.Item.lines] at spelled

/-- A step adds a fixed line where it reads a line to be copied in the schema block. -/
theorem fixedLines_step
    {progress next : Progress}
    {line : ContentLine}
    (starts : Text.startsWord line.text = true)
    (stepped : progress.step line = .ok next) :
    next.schema.fixedLines =
      progress.schema.fixedLines ++
        if progress.scope = .body ∧ line.isCopied then [line.text.tail] else [] := by
  rcases progress with ⟨scope, schema, diagnostics⟩
  cases scope with
  | directives =>
      rcases (Outline.step_directives_eq_ok_iff _ _ _ _).mp stepped with
        ⟨plain, -, rfl⟩ | ⟨opening, -, rfl⟩
      · simp [readDirective_fixedLines]
      · simp
  | body =>
      rcases (Outline.step_body_eq_ok_iff _ _ starts _).mp stepped with
        ⟨item, spelled, rfl⟩ | ⟨opening, spelled, rfl⟩ | ⟨closing, spelled, rfl⟩
      · rw [Outline.Item.addTo, fixedLine?_of_lines spelled]
        simp
      · simp [isCopied_eq_false_of_opens (spelled ▸ opening.opens)]
      · simp [isCopied_eq_false_of_closes (spelled ▸ closing.closes)]
  | variant current =>
      rcases (Outline.step_variant_eq_ok_iff _ _ _ _ _).mp stepped with
        ⟨fieldLine, -, rfl⟩ | ⟨closing, -, rfl⟩
      · simp
      · simp
  | finished | ignoring first count =>
      simp only [step, Except.ok.injEq] at stepped
      subst stepped
      simp

/-- A run adds the copies of the lines that it reads. -/
theorem fixedLines_run
    {progress last : Progress}
    {content : List ContentLine}
    (starts : ∀ line ∈ content, Text.startsWord line.text = true)
    (runs : progress.run content = .ok last) :
    last.schema.fixedLines = progress.schema.fixedLines ++ progress.copies content := by
  induction content generalizing progress with
  | nil =>
      obtain rfl := Except.ok.inj runs
      simp [copies, blockLines]
  | cons line rest induction =>
      rw [List.forall_mem_cons] at starts
      rw [run] at runs
      cases stepped : progress.step line with
      | error fault =>
          rw [stepped] at runs
          cases runs
      | ok next =>
          rw [stepped] at runs
          rw [induction starts.2 runs, fixedLines_step starts.1 stepped, List.append_assoc]
          congr 1
          by_cases inBody : progress.scope = .body
          · cases copied : line.isCopied <;>
              simp [copies, blockLines, stepped, inBody, copied]
          · simp [copies, blockLines, stepped, inBody]

end Progress

/-! ## Copies in front -/

/-- The schema with lines in front of its fixed lines. -/
def Schema.copying (front : List Text) (schema : Schema) : Schema :=
  { schema with fixedLines := front ++ schema.fixedLines }

/-- The reading with lines in front of the fixed lines of its schema. -/
def Reading.copying (front : List Text) : Reading → Reading
  | completed schema diagnostics => completed (schema.copying front) diagnostics
  | aborted earlier rejection => aborted earlier rejection

namespace Progress

/-- What has been read, with lines in front of the fixed lines. -/
def copying (front : List Text) (progress : Progress) : Progress :=
  { progress with schema := progress.schema.copying front }

theorem readDirective_copying (front : List Text) (progress : Progress) (line : ContentLine) :
    (progress.copying front).readDirective line = (progress.readDirective line).copying front := by
  unfold readDirective
  split
  · rfl
  · split <;> rfl

theorem readMember_copying (front : List Text) (schema : Schema) (line : ContentLine) :
    readMember (schema.copying front) line = (readMember schema line).map (·.copying front) := by
  unfold readMember
  split
  · simp [Except.map, Schema.copying]
  · cases readField line.words with
    | error fault => rfl
    | ok field =>
        simp only [bind, Except.bind]
        split <;> rfl
  · cases readField line.words with
    | error fault => rfl
    | ok field => rfl

/-- A step does not look at the fixed lines. -/
theorem step_copying (front : List Text) (progress : Progress) (line : ContentLine) :
    (progress.copying front).step line = (progress.step line).map (·.copying front) := by
  rcases progress with ⟨scope, schema, diagnostics⟩
  cases scope with
  | finished | ignoring first count => rfl
  | directives =>
      cases marked : line.marker with
      | opens =>
          simp only [copying, step, marked]
          cases blockName line <;> rfl
      | closes => simp [copying, step, marked, Except.map]
      | plain =>
          simp only [copying, step, marked, Except.map]
          exact congrArg Except.ok
            (readDirective_copying front ⟨.directives, schema, diagnostics⟩ line)
  | body =>
      cases marked : line.marker with
      | opens =>
          simp only [copying, step, marked]
          cases blockName line <;> rfl
      | closes => simp [copying, step, marked, Except.map, Schema.copying]
      | plain =>
          simp only [copying, step, marked, readMember_copying]
          cases readMember schema line <;> rfl
  | variant current =>
      cases marked : line.marker with
      | opens => simp [copying, step, marked, Except.map]
      | closes => simp [copying, step, marked, Except.map, Schema.copying]
      | plain =>
          simp only [copying, step, marked]
          cases readField line.words <;> rfl

theorem finish_copying (front : List Text) (progress : Progress) :
    (progress.copying front).finish = progress.finish.copying front := by
  rcases progress with ⟨scope, schema, diagnostics⟩
  cases scope <;> rfl

/-- Lines in front of the fixed lines are carried along to the end of a reading. -/
theorem read_copying (front : List Text) (progress : Progress) (content : List ContentLine) :
    (progress.copying front).read content = (progress.read content).copying front := by
  induction content generalizing progress with
  | nil => exact finish_copying front progress
  | cons line rest induction =>
      rw [read, read, step_copying]
      cases progress.step line with
      | error fault => rfl
      | ok next => exact induction next

/-- What has been read, without any fixed line. -/
def withoutCopies (progress : Progress) : Progress :=
  { progress with schema := { progress.schema with fixedLines := [] } }

theorem copying_withoutCopies (progress : Progress) :
    progress.withoutCopies.copying progress.schema.fixedLines = progress := by
  simp [copying, withoutCopies, Schema.copying]

/-- In the schema block, a line to be copied adds its copy and does nothing else. -/
theorem step_of_copied
    {progress : Progress}
    {line : ContentLine}
    {text : Text}
    (inBody : progress.scope = .body)
    (marked : line.text = '&' :: text)
    (plain : Outline.IsPlain line.text) :
    progress.step line =
      .ok (progress.withoutCopies.copying (progress.schema.fixedLines ++ [text])) := by
  rcases progress with ⟨scope, schema, diagnostics⟩
  obtain rfl : scope = .body := inBody
  simp [step, (Outline.marker_eq_plain_iff line).mpr plain, readMember, marked, bind,
    Except.bind, copying, withoutCopies, Schema.copying]

end Progress

theorem Reading.copying_eq_completed
    {front : List Text}
    {reading : Reading}
    {schema : Schema}
    {diagnostics : List Diagnostic}
    (completed : reading.copying front = .completed schema diagnostics) :
    ∃ rest, reading = .completed rest diagnostics ∧ rest.copying front = schema := by
  cases reading with
  | aborted earlier rejection => cases completed
  | completed rest remarks =>
      cases completed
      exact ⟨rest, rfl, rfl⟩

/-! ## Splicing lines into the schema block -/

/-- Before a visible character there is nothing to trim. -/
theorem Text.trim_cons
    {character : Char}
    (visible : isBlank character = false)
    (rest : Text) :
    trim (character :: rest) = character :: trimEnd rest := by
  have startKept : trimStart (character :: rest) = character :: rest := by
    simp [trimStart, visible]
  rw [trim, startKept, trimEnd, trimEnd, List.reverse_cons, List.dropWhile_append]
  split
  · rename_i blankRest
    simp [List.isEmpty_iff.mp blankRest, visible]
  · simp

namespace Progress

/-- In the schema block, lines to be copied add their copies and do nothing else. -/
theorem run_of_copied
    {progress : Progress}
    {raws : List Text}
    (inBody : progress.scope = .body)
    (plain : ∀ raw ∈ raws, Outline.IsPlain ('&' :: Text.trimEnd raw))
    (number : Nat) :
    progress.run (ContentLine.numberedFrom number (raws.map ('&' :: ·))) =
      .ok (progress.withoutCopies.copying
        (progress.schema.fixedLines ++ raws.map Text.trimEnd)) := by
  induction raws generalizing progress number with
  | nil =>
      rw [List.map_nil, List.map_nil, List.append_nil, copying_withoutCopies]
      rfl
  | cons raw rest induction =>
      rw [List.forall_mem_cons] at plain
      have content : ContentLine.isContent ('&' :: Text.trimEnd raw) = true := by
        simp [ContentLine.isContent]
      have trimmed : Text.trim ('&' :: raw) = '&' :: Text.trimEnd raw :=
        Text.trim_cons (by decide) raw
      have stepped :
          progress.step ⟨number, '&' :: Text.trimEnd raw⟩ =
            .ok (progress.withoutCopies.copying
              (progress.schema.fixedLines ++ [Text.trimEnd raw])) :=
        step_of_copied inBody rfl plain.1
      have nextInBody :
          (progress.withoutCopies.copying
            (progress.schema.fixedLines ++ [Text.trimEnd raw])).scope = .body :=
        inBody
      rw [List.map_cons, ContentLine.numberedFrom, trimmed, if_pos content, run, stepped]
      refine (induction nextInBody plain.2 (number + 1)).trans ?_
      simp [copying, withoutCopies, Schema.copying]

/-- Which numbers lines have does not matter to the schema that is read from them. -/
theorem exists_read_numberedFrom
    {progress : Progress}
    {lines : List Text}
    {number : Nat}
    {schema : Schema}
    {diagnostics : List Diagnostic}
    (completed :
      progress.read (ContentLine.numberedFrom number lines) = .completed schema diagnostics)
    (other : Nat) :
    ∃ remarks,
      progress.read (ContentLine.numberedFrom other lines) = .completed schema remarks := by
  have alike :
      List.Forall₂ Alike
        (ContentLine.numberedFrom number lines) (ContentLine.numberedFrom other lines) :=
    (Layout.sameContent_of_texts_eq rfl).alike number other
  have sameGist :
      (progress.read (ContentLine.numberedFrom number lines)).gist =
        (progress.read (ContentLine.numberedFrom other lines)).gist :=
    gist_read rfl alike
  rw [completed, Reading.gist_completed] at sameGist
  cases renumbered : progress.read (ContentLine.numberedFrom other lines) with
  | aborted earlier rejection =>
      rw [renumbered] at sameGist
      exact (Bool.noConfusion (congrArg Reading.Gist.isCompleted sameGist))
  | completed reached remarks =>
      rw [renumbered] at sameGist
      obtain rfl := Option.some.inj (congrArg Reading.Gist.schema? sameGist)
      exact ⟨remarks, rfl⟩

end Progress

namespace Reading

/-- What is copied of a document, in its order. -/
def copiedLines (lines : List Text) : List Text :=
  Progress.copies {} (ContentLine.ofLines lines)

/-- The lines of the schema block that are meant to be copied. -/
def markedLines (lines : List Text) : List ContentLine :=
  (Progress.blockLines {} (ContentLine.ofLines lines)).filter (·.isMarked)

/-- The lines lead into the schema block, to a place outside the blocks of variants. -/
def LeadsIntoBlock (above : List Text) : Prop :=
  ∃ progress, Progress.run {} (ContentLine.ofLines above) = .ok progress ∧ progress.scope = .body

/-- How the fixed lines of a schema come from a document that describes it. -/
structure CopiesLines
    (lines : List Text)
    (schema : Schema)
    (diagnostics : List Diagnostic) : Prop where
  /-- The fixed lines are the copies of lines of the schema block, in their order. -/
  inOrder : schema.fixedLines = copiedLines lines
  /-- All lines meant to be copied are, unless the last word of one is a brace. -/
  complete :
    schema.fixedLines = (markedLines lines).map (·.text.tail) ↔
      ∀ line ∈ markedLines lines, Outline.IsPlain line.text
  /-- A line that is copied does nothing else: a blank line in its place drops the copy. -/
  onlyCopied :
    ∀ {above below : List Text} {raw text : Text},
      lines = above ++ raw :: below →
      LeadsIntoBlock above →
      Text.trim raw = '&' :: text →
      Outline.IsPlain (Text.trim raw) →
        ∃ later,
          schema.fixedLines = copiedLines above ++ text :: later ∧
            ofLines (above ++ [] :: below) =
              .completed { schema with fixedLines := copiedLines above ++ later } diagnostics
  /-- Lines are copied into the schema block, whatever they say, if no last word is a brace. -/
  spliced :
    ∀ {above below : List Text},
      lines = above ++ below →
      LeadsIntoBlock above →
        ∃ later,
          schema.fixedLines = copiedLines above ++ later ∧
            ∀ raws : List Text,
              (∀ raw ∈ raws, Outline.IsPlain ('&' :: Text.trimEnd raw)) ↔
                ∃ remarks,
                  ofLines (above ++ raws.map ('&' :: ·) ++ below) =
                    .completed
                      { schema with
                        fixedLines := copiedLines above ++ raws.map Text.trimEnd ++ later }
                      remarks

variable {lines above below : List Text} {schema : Schema} {diagnostics : List Diagnostic}

/-- In the schema block of a document, lines to be copied put their copies in their place. -/
theorem ofLines_spliced
    {progress : Progress}
    {raws : List Text}
    (runs : Progress.run {} (ContentLine.ofLines above) = .ok progress)
    (inBody : progress.scope = .body)
    (plain : ∀ raw ∈ raws, Outline.IsPlain ('&' :: Text.trimEnd raw))
    (below : List Text) :
    ofLines (above ++ raws.map ('&' :: ·) ++ below) =
      (progress.withoutCopies.read
          (ContentLine.numberedFrom (1 + above.length + raws.length) below)).copying
        (copiedLines above ++ raws.map Text.trimEnd) := by
  have before : progress.schema.fixedLines = copiedLines above :=
    Progress.fixedLines_run (fun _ => ContentLine.startsWord_of_mem_ofLines) runs
  rw [List.append_assoc, ofLines_append, Progress.read_append_of_run runs,
    ContentLine.numberedFrom_append,
    Progress.read_append_of_run (Progress.run_of_copied inBody plain _),
    Progress.read_copying, before, List.length_map]

theorem ofLines_of_leadsIntoBlock
    {progress : Progress}
    (runs : Progress.run {} (ContentLine.ofLines above) = .ok progress)
    (inBody : progress.scope = .body)
    (below : List Text) :
    ofLines (above ++ below) =
      (progress.withoutCopies.read
          (ContentLine.numberedFrom (1 + above.length) below)).copying
        (copiedLines above) := by
  have nothing : ∀ raw ∈ ([] : List Text), Outline.IsPlain ('&' :: Text.trimEnd raw) := by simp
  have spliced := ofLines_spliced runs inBody nothing below
  rwa [List.map_nil, List.map_nil, List.append_nil, List.append_nil] at spliced

/-- A line is read by what trimming leaves of it. -/
theorem ofLines_eq_of_trim_eq
    {raw other : Text}
    (same : Text.trim raw = Text.trim other) :
    ofLines (above ++ raw :: below) = ofLines (above ++ other :: below) := by
  rw [ofLines_append, ofLines_append, ContentLine.numberedFrom, same, ContentLine.numberedFrom]

theorem fixedLines_eq_copiedLines
    (completed : ofLines lines = .completed schema diagnostics) :
    schema.fixedLines = copiedLines lines := by
  obtain ⟨⟨scope, reached, remarks⟩, runs, finished⟩ :=
    Progress.exists_run_of_completed completed
  have copied : reached.fixedLines = copiedLines lines :=
    Progress.fixedLines_run (fun _ => ContentLine.startsWord_of_mem_ofLines) runs
  cases scope with
  | directives | body | variant current => cases finished
  | finished | ignoring first count =>
      simp only [Progress.finish, Reading.completed.injEq] at finished
      rw [← finished.1, copied]

/-- What is copied are the lines meant to be copied whose last word is no brace. -/
theorem copiedLines_eq_markedLines (lines : List Text) :
    copiedLines lines =
      ((markedLines lines).filter (·.marker = .plain)).map (·.text.tail) := by
  simp [copiedLines, Progress.copies, markedLines, List.filter_filter, ContentLine.isCopied,
    Bool.and_comm]

theorem copiedLines_eq_markedLines_iff (lines : List Text) :
    copiedLines lines = (markedLines lines).map (·.text.tail) ↔
      ∀ line ∈ markedLines lines, Outline.IsPlain line.text := by
  have plain (line : ContentLine) : line.marker = .plain ↔ Outline.IsPlain line.text :=
    Outline.marker_eq_plain_iff line
  rw [copiedLines_eq_markedLines]
  constructor
  · intro same
    -- A line that is left out makes the list of copies shorter.
    have sameLength := congrArg List.length same
    rw [List.length_map, List.length_map, List.length_filter_eq_length_iff] at sameLength
    simpa [plain] using sameLength
  · intro allPlain
    rw [List.filter_eq_self.mpr (by simpa [plain] using allPlain)]

/-- A line that is copied does nothing else. -/
theorem ofLines_without_copied
    {raw text : Text}
    (completed : ofLines (above ++ raw :: below) = .completed schema diagnostics)
    (inBlock : LeadsIntoBlock above)
    (marked : Text.trim raw = '&' :: text)
    (plain : Outline.IsPlain (Text.trim raw)) :
    ∃ later,
      schema.fixedLines = copiedLines above ++ text :: later ∧
        ofLines (above ++ [] :: below) =
          .completed { schema with fixedLines := copiedLines above ++ later } diagnostics := by
  obtain ⟨progress, runs, inBody⟩ := inBlock
  have trimmed : Text.trim ('&' :: text) = '&' :: text := by
    rw [← marked]
    exact Text.trim_eq_self (Text.startsWord_trim (by simp [marked])) (Text.endsVisibly_trim raw)
  have ended : Text.trimEnd text = text := by
    rw [Text.trim_cons (by decide)] at trimmed
    exact (List.cons.inj trimmed).2
  have withCopy :
      ofLines (above ++ raw :: below) =
        (progress.withoutCopies.read
            (ContentLine.numberedFrom (1 + above.length + 1) below)).copying
          (copiedLines above ++ [text]) := by
    have single : ∀ raw ∈ [text], Outline.IsPlain ('&' :: Text.trimEnd raw) := by
      simpa [ended, ← marked] using plain
    have spliced := ofLines_spliced runs inBody single below
    rw [List.map_singleton, List.map_singleton, ended, List.append_assoc] at spliced
    exact (ofLines_eq_of_trim_eq (marked.trans trimmed.symm)).trans spliced
  have withBlank :
      ofLines (above ++ [] :: below) =
        (progress.withoutCopies.read
            (ContentLine.numberedFrom (1 + above.length + 1) below)).copying
          (copiedLines above) := by
    rw [ofLines_of_leadsIntoBlock runs inBody]
    rfl
  obtain ⟨rest, restCompleted, rfl⟩ := copying_eq_completed (withCopy.symm.trans completed)
  refine ⟨rest.fixedLines, by simp [Schema.copying], ?_⟩
  rw [withBlank, restCompleted]
  rfl

/-- Lines can be copied into the schema block just if no last word among them is a brace. -/
theorem exists_ofLines_spliced
    (completed : ofLines (above ++ below) = .completed schema diagnostics)
    (inBlock : LeadsIntoBlock above) :
    ∃ later,
      schema.fixedLines = copiedLines above ++ later ∧
        ∀ raws : List Text,
          (∀ raw ∈ raws, Outline.IsPlain ('&' :: Text.trimEnd raw)) ↔
            ∃ remarks,
              ofLines (above ++ raws.map ('&' :: ·) ++ below) =
                .completed
                  { schema with
                    fixedLines := copiedLines above ++ raws.map Text.trimEnd ++ later }
                  remarks := by
  obtain ⟨progress, runs, inBody⟩ := inBlock
  have unchanged := ofLines_of_leadsIntoBlock runs inBody below
  obtain ⟨rest, restCompleted, rfl⟩ := copying_eq_completed (unchanged.symm.trans completed)
  refine ⟨rest.fixedLines, rfl, fun raws => ⟨?_, ?_⟩⟩
  · intro plain
    -- The lines below are read as before; only their numbers have changed.
    obtain ⟨remarks, renumbered⟩ :=
      Progress.exists_read_numberedFrom restCompleted (1 + above.length + raws.length)
    refine ⟨remarks, ?_⟩
    rw [ofLines_spliced runs inBody plain below, renumbered]
    rfl
  · rintro ⟨remarks, splicedCompleted⟩ raw member
    apply Outline.isPlain_fixed
    apply (isWellFormed_of_completed splicedCompleted).fixedLines
    simp only [List.mem_append, List.mem_map]
    exact Or.inl (Or.inr ⟨raw, member, rfl⟩)

/--
The fixed lines of a completed document are the lines of the schema block that
begin with an ampersand and do not end in a brace that is a word of its own.
-/
theorem copiesLines_of_completed
    (completed : ofLines lines = .completed schema diagnostics) :
    CopiesLines lines schema diagnostics where
  inOrder := fixedLines_eq_copiedLines completed
  complete := by
    rw [fixedLines_eq_copiedLines completed]
    exact copiedLines_eq_markedLines_iff lines
  onlyCopied := by
    rintro above below raw text rfl inBlock marked plain
    exact ofLines_without_copied completed inBlock marked plain
  spliced := by
    rintro above below rfl inBlock
    exact exists_ofLines_spliced completed inBlock

/-- The first lines of a schema block, with a line to be copied and a variant. -/
def shapeAbove : List Text :=
  ["Shape \x7b", "  &int Sides() \x7b return 0; \x7d;", "  Circle \x7b", "    float r", "  \x7d"]

/-- The other lines of the block, with one more line to be copied. -/
def shapeBelow : List Text :=
  ["int id", "\t&  // \x7d \x7b id ", "\x7d"]

/-- The schema of the block. -/
def shapeSchema : Schema where
  name := "Shape"
  baseFields := [⟨"int", "id"⟩]
  fixedLines := ["int Sides() \x7b return 0; \x7d;", "  // \x7d \x7b id"]
  variants := [⟨"Circle", [⟨"float", "r"⟩]⟩]

theorem copiesLines_shape :
    let completion := Progress.completion "Shape" ⟨8, "\x7d"⟩
    ofLines (shapeAbove ++ shapeBelow) = .completed shapeSchema [completion] ∧
      LeadsIntoBlock shapeAbove ∧
      CopiesLines (shapeAbove ++ shapeBelow) shapeSchema [completion] := by
  have completed :
      ofLines (shapeAbove ++ shapeBelow) =
        .completed shapeSchema [Progress.completion "Shape" ⟨8, "\x7d"⟩] := by
    decide +kernel
  exact ⟨completed, ⟨_, rfl, rfl⟩, copiesLines_of_completed completed⟩

/-- A block with a line that begins with an ampersand and ends in a brace. -/
def bracedLines : List Text :=
  ["A \x7b", "&int F() \x7b", "& \x7d", "\x7d"]

/-- The line that ends in a brace is not copied: it opens the block of a variant. -/
theorem brace_prevents_copy :
    ofLines bracedLines =
        .completed { name := "A", variants := [⟨"&int", []⟩] }
          [Progress.completion "A" ⟨4, "\x7d"⟩] ∧
      (markedLines bracedLines).map (·.text.tail) = ["int F() \x7b"] := by
  decide +kernel

end Reading

end TaggedUnion
