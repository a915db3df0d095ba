import TaggedUnion.Proofs.Document.Run

/-!
# Documents and their extensions

How a document is read fixes how its extensions are read.  A complete document
stays complete with the same schema, and lines that are added to it are only
counted.  A document that is rejected at a line stays rejected there.  Any
other document can still be completed, and what has been remarked on it will
also be remarked on its extensions.

Every document stands in exactly one of these three ways.  A document is
therefore rejected at the first line after which nothing can complete it.
-/

namespace TaggedUnion

/-- Whether the schema block is still to be opened or closed. -/
def Scope.IsOpen : Scope → Prop
  | directives | body | variant _ => True
  | finished | ignoring _ _ => False

namespace Progress

/-! ## Steps and remarks -/

/--
As long as the schema block is not closed, a step remarks at most on an
unknown directive; the step that closes the block remarks on the completion.
-/
theorem step_cases
    {progress next : Progress}
    {line : ContentLine}
    (isOpen : progress.scope.IsOpen)
    (stepped : progress.step line = .ok next) :
    (next.scope.IsOpen ∧
        ∃ remarks,
          next.diagnostics = progress.diagnostics ++ remarks ∧
            ∀ remark ∈ remarks, remark = unknownDirective line) ∨
      (progress.scope = .body ∧
        next =
          ⟨.finished, progress.schema,
            progress.diagnostics ++ [completion progress.schema.name line]⟩) := by
  obtain ⟨scope, schema, diagnostics⟩ := progress
  cases scope with
  | finished | ignoring first count => exact isOpen.elim
  | directives =>
      cases marked : line.marker with
      | closes => simp [step, marked] at stepped
      | opens =>
          cases named : blockName line with
          | error fault => simp [step, marked, named, bind, Except.bind] at stepped
          | ok name =>
              simp only [step, marked, named, bind, Except.bind,
                Except.ok.injEq] at stepped
              subst stepped
              exact Or.inl ⟨trivial, [], by simp⟩
      | plain =>
          simp only [step, marked, Except.ok.injEq] at stepped
          subst stepped
          unfold readDirective
          split
          · exact Or.inl ⟨trivial, [], by simp⟩
          · split
            · exact Or.inl ⟨trivial, [], by simp⟩
            · exact Or.inl ⟨trivial, [unknownDirective line], by simp⟩
  | body =>
      cases marked : line.marker with
      | closes =>
          simp only [step, marked, Except.ok.injEq] at stepped
          exact Or.inr ⟨rfl, stepped.symm⟩
      | opens =>
          cases named : blockName line with
          | error fault => simp [step, marked, named, bind, Except.bind] at stepped
          | ok name =>
              simp only [step, marked, named, bind, Except.bind,
                Except.ok.injEq] at stepped
              subst stepped
              exact Or.inl ⟨trivial, [], by simp⟩
      | plain =>
          cases read : readMember schema line with
          | error fault => simp [step, marked, read, bind, Except.bind] at stepped
          | ok changed =>
              simp only [step, marked, read, bind, Except.bind,
                Except.ok.injEq] at stepped
              subst stepped
              exact Or.inl ⟨trivial, [], by simp⟩
  | variant current =>
      cases marked : line.marker with
      | opens => simp [step, marked] at stepped
      | closes =>
          simp only [step, marked, Except.ok.injEq] at stepped
          subst stepped
          exact Or.inl ⟨trivial, [], by simp⟩
      | plain =>
          cases read : readField line.words with
          | error fault => simp [step, marked, read, bind, Except.bind] at stepped
          | ok field =>
              simp only [step, marked, read, bind, Except.bind,
                Except.ok.injEq] at stepped
              subst stepped
              exact Or.inl ⟨trivial, [], by simp⟩

/-- What has been remarked before the schema block is closed stays remarked. -/
theorem diagnostics_isPrefix_read
    {progress : Progress}
    (isOpen : progress.scope.IsOpen)
    (lines : List ContentLine) :
    progress.diagnostics <+: (progress.read lines).diagnostics := by
  induction lines generalizing progress with
  | nil =>
      obtain ⟨scope, schema, diagnostics⟩ := progress
      cases scope with
      | finished | ignoring first count => exact isOpen.elim
      | directives | body | variant current =>
          exact List.prefix_append _ _
  | cons line rest induction =>
      rw [read]
      cases stepped : progress.step line with
      | error fault => exact List.prefix_append _ _
      | ok next =>
          rcases step_cases isOpen stepped with
            ⟨nextOpen, remarks, remarked, -⟩ | ⟨-, rfl⟩
          · have early : progress.diagnostics <+: next.diagnostics :=
              remarked ▸ List.prefix_append _ _
            exact early.trans (induction nextOpen)
          · simp only [read_finished, Reading.diagnostics, List.append_assoc]
            exact List.prefix_append _ _

/-- A document is completed by a line that closes the schema block. -/
theorem exists_closing_of_completed
    {progress : Progress}
    {lines : List ContentLine}
    {schema : Schema}
    {diagnostics : List Diagnostic}
    (isOpen : progress.scope.IsOpen)
    (directivesOnly :
      ∀ remark ∈ progress.diagnostics, ∃ line, remark = unknownDirective line)
    (completed : progress.read lines = .completed schema diagnostics) :
    ∃ before closing after early,
      lines = before ++ closing :: after ∧
        progress.run (before ++ [closing]) =
          .ok ⟨.finished, schema, early ++ [completion schema.name closing]⟩ ∧
        (∀ remark ∈ early, ∃ line, remark = unknownDirective line) ∧
        diagnostics =
          early ++ completion schema.name closing :: trailing schema.name after := by
  induction lines generalizing progress with
  | nil =>
      obtain ⟨scope, schema, diagnostics⟩ := progress
      cases scope with
      | finished | ignoring first count => exact isOpen.elim
      | directives | body | variant current => simp [read, finish] at completed
  | cons line rest induction =>
      rw [read] at completed
      cases stepped : progress.step line with
      | error fault => simp [stepped] at completed
      | ok next =>
          simp only [stepped] at completed
          rcases step_cases isOpen stepped with
            ⟨nextOpen, remarks, remarked, unknown⟩ | ⟨-, rfl⟩
          · have nextDirectivesOnly :
                ∀ remark ∈ next.diagnostics, ∃ line, remark = unknownDirective line := by
              intro remark member
              rw [remarked] at member
              rcases List.mem_append.mp member with old | new
              · exact directivesOnly remark old
              · exact ⟨line, unknown remark new⟩
            obtain ⟨before, closing, after, early, rfl, runs, earlyUnknown, equal⟩ :=
              induction nextOpen nextDirectivesOnly completed
            refine ⟨line :: before, closing, after, early, rfl, ?_, earlyUnknown, equal⟩
            rw [List.cons_append, run, stepped]
            exact runs
          · rw [read_finished, Reading.completed.injEq] at completed
            obtain ⟨rfl, rfl⟩ := completed
            refine ⟨[], line, rest, progress.diagnostics, rfl, ?_, directivesOnly, by simp⟩
            exact run_singleton_of_step stepped

/-- Raw lines that complete any document that has got to the scope. -/
def completing : Scope → List Text
  | .directives => ["Union \x7b", "\x7d"]
  | .body => ["\x7d"]
  | .variant _ => ["\x7d", "\x7d"]
  | .finished | .ignoring _ _ => []

theorem read_completing (progress : Progress) (number : Nat) :
    ∃ schema diagnostics,
      progress.read (ContentLine.numberedFrom number (completing progress.scope)) =
        .completed schema diagnostics := by
  obtain ⟨scope, schema, diagnostics⟩ := progress
  cases scope with
  | directives | body | variant current => exact ⟨_, _, rfl⟩
  | finished | ignoring first count => exact ⟨_, _, rfl⟩

/-- Where a run ends outside the finished scopes, reading is aborted without a line. -/
theorem finish_of_isOpen
    {progress : Progress}
    (isOpen : progress.scope.IsOpen) :
    ∃ rejection,
      progress.finish = .aborted progress.diagnostics rejection ∧
        rejection.diagnostic.lineNumber = none := by
  obtain ⟨scope, schema, diagnostics⟩ := progress
  cases scope with
  | finished | ignoring first count => exact isOpen.elim
  | directives | body | variant current => exact ⟨_, rfl, rfl⟩

theorem finish_of_not_isOpen
    {progress : Progress}
    (closed : ¬ progress.scope.IsOpen) :
    ∃ diagnostics, progress.finish = .completed progress.schema diagnostics := by
  obtain ⟨scope, schema, diagnostics⟩ := progress
  cases scope with
  | finished | ignoring first count => exact ⟨_, rfl⟩
  | directives | body | variant current => exact (closed trivial).elim

end Progress

namespace Reading

/-! ## Extensions of documents -/

theorem ofLines_append (lines more : List Text) :
    ofLines (lines ++ more) =
      Progress.read {}
        (ContentLine.ofLines lines ++
          ContentLine.numberedFrom (1 + lines.length) more) := by
  rw [ofLines, ContentLine.ofLines, ContentLine.numberedFrom_append]
  rfl

/-- The number of the line at which a document is rejected, if there is such a line. -/
def rejectedAt? : Reading → Option Int
  | completed _ _ => none
  | aborted _ rejection => rejection.diagnostic.lineNumber

/-- Some lines complete the document. -/
def Extendable (lines : List Text) : Prop :=
  ∃ more schema diagnostics, ofLines (lines ++ more) = .completed schema diagnostics

/-- The ways in which a document stands to its extensions. -/
inductive Standing where
  | complete
  | rejected
  | unfinished
deriving DecidableEq

/--
A complete document has the same schema with any lines added, and the same
remarks up to the one on its completion; if content follows the line that the
latter names, one more remark names the first of its lines and counts them.  A document rejected at a line is
read the same with any lines added.  An unfinished document can be completed,
and all its remarks but the last are made on every extension.
-/
def Standing.Holds (lines : List Text) : Standing → Prop
  | complete =>
      ∃ schema early closing late,
        ∃ number : Nat,
          ofLines lines = .completed schema (early ++ closing :: late) ∧
            (∀ remark ∈ early, remark.code ≠ ("ParsingCompleted" : Text)) ∧
            closing =
              { severity := .info
                code := "ParsingCompleted"
                message := .cat ["Parsing completed for ", schema.name]
                lineNumber := some number } ∧
            number ≤ lines.length ∧
            ∀ more,
              ofLines (lines ++ more) =
                .completed schema
                  (early ++ closing ::
                    Progress.trailing schema.name
                      (ContentLine.numberedFrom (number + 1)
                        ((lines ++ more).drop number)))
  | rejected =>
      ∃ earlier rejection number,
        ofLines lines = .aborted earlier rejection ∧
          rejection.diagnostic.lineNumber = some number ∧
          ∀ more, ofLines (lines ++ more) = ofLines lines
  | unfinished =>
      ∃ earlier rejection,
        ofLines lines = .aborted earlier rejection ∧
          rejection.diagnostic.lineNumber = none ∧
          Extendable lines ∧
          ∀ more,
            (ofLines lines).diagnostics.dropLast <+: (ofLines (lines ++ more)).diagnostics

theorem holds_rejected_of_run_error
    {lines : List Text}
    {reading : Reading}
    (fails : Progress.run {} (ContentLine.ofLines lines) = .error reading) :
    Standing.rejected.Holds lines := by
  obtain ⟨before, line, after, middle, fault, -, -, -, rfl⟩ := Progress.run_eq_error fails
  have rejected := Progress.read_of_run_error fails
  refine ⟨_, _, line.number, rejected, rfl, ?_⟩
  intro more
  rw [ofLines_append, ofLines, rejected]
  exact Progress.read_of_run_error (Progress.run_append_of_run_error fails _)

theorem extendable_of_run
    {lines : List Text}
    {last : Progress}
    (runs : Progress.run {} (ContentLine.ofLines lines) = .ok last) :
    Extendable lines := by
  obtain ⟨schema, diagnostics, completed⟩ :=
    last.read_completing (1 + lines.length)
  refine ⟨Progress.completing last.scope, schema, diagnostics, ?_⟩
  rw [ofLines_append, Progress.read_append_of_run runs]
  exact completed

theorem holds_unfinished_of_run
    {lines : List Text}
    {last : Progress}
    (runs : Progress.run {} (ContentLine.ofLines lines) = .ok last)
    (isOpen : last.scope.IsOpen) :
    Standing.unfinished.Holds lines := by
  obtain ⟨rejection, finished, unnumbered⟩ := Progress.finish_of_isOpen isOpen
  have aborted : ofLines lines = .aborted last.diagnostics rejection := by
    rw [ofLines, Progress.read_of_run runs, finished]
  refine ⟨_, _, aborted, unnumbered, extendable_of_run runs, ?_⟩
  intro more
  rw [aborted, diagnostics, List.dropLast_concat, ofLines_append,
    Progress.read_append_of_run runs]
  exact Progress.diagnostics_isPrefix_read isOpen _

theorem holds_complete_of_completed
    {lines : List Text}
    {schema : Schema}
    {diagnostics : List Diagnostic}
    (completed : ofLines lines = .completed schema diagnostics) :
    Standing.complete.Holds lines := by
  have initiallyOpen : ({} : Progress).scope.IsOpen := trivial
  obtain ⟨before, closing, after, early, split, runs, unknown, rfl⟩ :=
    Progress.exists_closing_of_completed initiallyOpen (by simp) completed
  obtain ⟨first, raw, second, rfl, beforeEqual, rfl, content, afterEqual⟩ :=
    ContentLine.numberedFrom_eq_append_cons split
  have upToClosing :
      ContentLine.ofLines (first ++ [raw]) =
        before ++ [⟨1 + first.length, Text.trim raw⟩] := by
    rw [ContentLine.ofLines, ContentLine.numberedFrom_concat 1 first content, beforeEqual]
  refine ⟨schema, early, _, _, 1 + first.length, completed, ?_, rfl, ?_, ?_⟩
  · intro remark member
    obtain ⟨line, rfl⟩ := unknown remark member
    simp [Progress.unknownDirective]
  · simp only [List.length_append, List.length_cons]
    omega
  · intro more
    have rearranged : first ++ raw :: second ++ more = first ++ [raw] ++ (second ++ more) := by
      simp
    have position : 1 + first.length = (first ++ [raw]).length := by
      simp [Nat.add_comm]
    rw [rearranged, ofLines_append, upToClosing, Progress.read_append_of_run runs,
      Progress.read_finished, position, List.drop_left, Nat.add_comm 1]
    simp

/-! ## Exactly one standing -/

theorem exists_standing (lines : List Text) :
    ∃ standing : Standing, standing.Holds lines := by
  cases runs : Progress.run {} (ContentLine.ofLines lines) with
  | error reading => exact ⟨.rejected, holds_rejected_of_run_error runs⟩
  | ok last =>
      by_cases isOpen : last.scope.IsOpen
      · exact ⟨.unfinished, holds_unfinished_of_run runs isOpen⟩
      · obtain ⟨diagnostics, finished⟩ := Progress.finish_of_not_isOpen isOpen
        have completed : ofLines lines = .completed last.schema diagnostics := by
          rw [ofLines, Progress.read_of_run runs, finished]
        exact ⟨.complete, holds_complete_of_completed completed⟩

/-- How a document stands to its extensions, as its reading shows it. -/
def standing : Reading → Standing
  | completed _ _ => .complete
  | aborted _ rejection =>
      match rejection.diagnostic.lineNumber with
      | some _ => .rejected
      | none => .unfinished

/-- The three standings exclude each other, since each shows in the reading. -/
theorem Standing.Holds.standing_eq
    {lines : List Text}
    {standing : Standing}
    (holds : standing.Holds lines) :
    (ofLines lines).standing = standing := by
  cases standing with
  | complete =>
      obtain ⟨_, _, _, _, _, completed, -⟩ := holds
      rw [completed]
      rfl
  | rejected =>
      obtain ⟨_, _, _, aborted, numbered, -⟩ := holds
      simp [aborted, Reading.standing, numbered]
  | unfinished =>
      obtain ⟨_, _, aborted, unnumbered, -⟩ := holds
      simp [aborted, Reading.standing, unnumbered]

/-! ## The line of a rejection -/

theorem Extendable.take
    {lines : List Text}
    (extendable : Extendable lines)
    (count : Nat) :
    Extendable (lines.take count) := by
  obtain ⟨more, schema, diagnostics, completed⟩ := extendable
  refine ⟨lines.drop count ++ more, schema, diagnostics, ?_⟩
  rw [← List.append_assoc, List.take_append_drop]
  exact completed

theorem Extendable.take_of_le
    {lines : List Text}
    {short long : Nat}
    (extendable : Extendable (lines.take long))
    (shorter : short ≤ long) :
    Extendable (lines.take short) := by
  have shortened := extendable.take short
  rwa [List.take_take, Nat.min_eq_left shorter] at shortened

theorem rejectedAt?_of_run
    {lines : List Text}
    {last : Progress}
    (runs : Progress.run {} (ContentLine.ofLines lines) = .ok last) :
    (ofLines lines).rejectedAt? = none := by
  rw [ofLines, Progress.read_of_run runs]
  obtain ⟨scope, schema, diagnostics⟩ := last
  cases scope <;> rfl

theorem not_extendable_of_run_error
    {lines : List Text}
    {reading : Reading}
    (fails : Progress.run {} (ContentLine.ofLines lines) = .error reading) :
    ¬ Extendable lines := by
  rintro ⟨more, schema, diagnostics, completed⟩
  obtain ⟨earlier, rejection, number, aborted, -, same⟩ := holds_rejected_of_run_error fails
  rw [same more, aborted] at completed
  cases completed

/-- A document that nothing completes is rejected at a line. -/
theorem exists_rejectedAt?_of_not_extendable
    {lines : List Text}
    (stuck : ¬ Extendable lines) :
    ∃ number, (ofLines lines).rejectedAt? = some number := by
  cases runs : Progress.run {} (ContentLine.ofLines lines) with
  | error reading =>
      obtain ⟨earlier, rejection, number, aborted, numbered, -⟩ :=
        holds_rejected_of_run_error runs
      exact ⟨number, by rw [aborted]; exact numbered⟩
  | ok last => exact (stuck (extendable_of_run runs)).elim

/-- Up to the line of a rejection a document can be completed, and with it no more. -/
theorem extendable_take_of_rejectedAt?
    {lines : List Text}
    {position : Int}
    (rejected : (ofLines lines).rejectedAt? = some position) :
    ∃ number : Nat,
      position = number ∧
        Extendable (lines.take (number - 1)) ∧ ¬ Extendable (lines.take number) := by
  cases runs : Progress.run {} (ContentLine.ofLines lines) with
  | ok last =>
      rw [rejectedAt?_of_run runs] at rejected
      cases rejected
  | error reading =>
      obtain ⟨before, line, after, middle, fault, split, earlier, refused, rfl⟩ :=
        Progress.run_eq_error runs
      rw [ofLines, Progress.read_of_run_error runs] at rejected
      obtain ⟨first, raw, second, rfl, rfl, rfl, content, -⟩ :=
        ContentLine.numberedFrom_eq_append_cons split
      refine ⟨1 + first.length, (Option.some.inj rejected).symm, ?_, ?_⟩
      · rw [Nat.add_sub_cancel_left, List.take_left]
        exact extendable_of_run earlier
      · have upToLine :
            (first ++ raw :: second).take (1 + first.length) = first ++ [raw] := by
          rw [Nat.add_comm, List.take_length_add_append]
          rfl
        have fails :
            Progress.run {} (ContentLine.ofLines (first ++ [raw])) =
              .error (.aborted middle.diagnostics
                (.atLine ⟨1 + first.length, Text.trim raw⟩ fault)) := by
          rw [ContentLine.ofLines, ContentLine.numberedFrom_concat 1 first content,
            Progress.run_append_of_run earlier, Progress.run, refused]
        rw [upToLine]
        exact not_extendable_of_run_error fails

/--
Every document stands to its extensions in exactly one of the three ways.
A document is rejected at a line if and only if the lines before it can be
completed and the lines up to it cannot.
-/
theorem extension_law (lines : List Text) :
    (∃! standing : Standing, standing.Holds lines) ∧
      ∀ number : Nat,
        (ofLines lines).rejectedAt? = some (number : Int) ↔
          Extendable (lines.take (number - 1)) ∧ ¬ Extendable (lines.take number) := by
  constructor
  · obtain ⟨standing, holds⟩ := exists_standing lines
    refine ⟨standing, holds, ?_⟩
    intro other otherHolds
    exact otherHolds.standing_eq.symm.trans holds.standing_eq
  · intro number
    constructor
    · intro rejected
      obtain ⟨position, equal, before, upTo⟩ := extendable_take_of_rejectedAt? rejected
      obtain rfl : number = position := Int.ofNat.inj equal
      exact ⟨before, upTo⟩
    · rintro ⟨before, upTo⟩
      have stuck : ¬ Extendable lines := fun extendable => upTo (extendable.take number)
      obtain ⟨position, rejected⟩ := exists_rejectedAt?_of_not_extendable stuck
      obtain ⟨found, rfl, foundBefore, foundUpTo⟩ := extendable_take_of_rejectedAt? rejected
      -- Completing is easier for fewer lines, so the two lines cannot differ.
      have notLater : ¬ number ≤ found - 1 := fun order => upTo (foundBefore.take_of_le order)
      have notEarlier : ¬ found ≤ number - 1 := fun order => foundUpTo (before.take_of_le order)
      obtain rfl : number = found := by omega
      exact rejected

end Reading

end TaggedUnion
