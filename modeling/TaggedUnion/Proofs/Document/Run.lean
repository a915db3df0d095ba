import TaggedUnion.Document.Reading
import TaggedUnion.Proofs.Text.Words
import Mathlib.Data.List.Induction

/-!
# Runs over content lines

The content of a document is what its lines leave after trimming, numbered by
the lines it comes from.  Numbering commutes with cutting a document in two,
and every place between content lines is a place between lines.

`Progress.run` reads content lines without drawing a conclusion at their end.
`Progress.read` is a run followed by `Progress.finish`, so a document that is
cut in two is read by two runs, one after the other.
-/

namespace TaggedUnion

namespace ContentLine

/-! ## Content and its numbers -/

/-- The content of raw lines: the trimmed lines that are neither empty nor comments. -/
def texts (lines : List Text) : List Text :=
  (lines.map Text.trim).filter isContent

theorem map_text_numberedFrom (number : Nat) (lines : List Text) :
    (numberedFrom number lines).map (·.text) = texts lines := by
  induction lines generalizing number with
  | nil => rfl
  | cons raw rest induction =>
      cases content : isContent (Text.trim raw) with
      | true => simpa [numberedFrom, texts, content] using induction (number + 1)
      | false => simpa [numberedFrom, texts, content] using induction (number + 1)

theorem map_text_ofLines (lines : List Text) :
    (ofLines lines).map (·.text) = texts lines :=
  map_text_numberedFrom 1 lines

theorem numberedFrom_append (number : Nat) (first second : List Text) :
    numberedFrom number (first ++ second) =
      numberedFrom number first ++ numberedFrom (number + first.length) second := by
  induction first generalizing number with
  | nil => simp [numberedFrom]
  | cons raw rest induction =>
      have shifted : number + 1 + rest.length = number + (raw :: rest).length := by
        simp only [List.length_cons]
        omega
      simp only [List.cons_append, numberedFrom, induction (number + 1), shifted]
      split <;> simp

/-- A content line among numbered lines is a raw line, trimmed, with its own number. -/
theorem numberedFrom_eq_append_cons
    {number : Nat}
    {lines : List Text}
    {before after : List ContentLine}
    {line : ContentLine}
    (split : numberedFrom number lines = before ++ line :: after) :
    ∃ first raw second,
      lines = first ++ raw :: second ∧
        numberedFrom number first = before ∧
        line = ⟨number + first.length, Text.trim raw⟩ ∧
        isContent line.text = true ∧
        numberedFrom (number + first.length + 1) second = after := by
  induction lines generalizing number before with
  | nil => simp [numberedFrom] at split
  | cons raw rest induction =>
      have position :
          (before = [] ∧ line = ⟨number, Text.trim raw⟩ ∧
              isContent line.text = true ∧ after = numberedFrom (number + 1) rest) ∨
            ∃ later,
              before = numberedFrom number [raw] ++ later ∧
                numberedFrom (number + 1) rest = later ++ line :: after := by
        cases content : isContent (Text.trim raw) with
        | false =>
            simp only [numberedFrom, content] at split ⊢
            exact Or.inr ⟨before, rfl, split⟩
        | true =>
            simp only [numberedFrom, content, if_true] at split ⊢
            cases before with
            | nil =>
                obtain ⟨rfl, rfl⟩ := List.cons.inj split
                exact Or.inl ⟨rfl, rfl, content, rfl⟩
            | cons head before =>
                obtain ⟨rfl, remaining⟩ := List.cons.inj split
                exact Or.inr ⟨before, rfl, remaining⟩
      rcases position with ⟨rfl, lineEqual, content, rfl⟩ | ⟨later, rfl, remaining⟩
      · exact ⟨[], raw, rest, rfl, rfl, lineEqual, content, rfl⟩
      · obtain ⟨first, inner, second, rfl, rfl, lineEqual, content, rfl⟩ :=
          induction remaining
        have shifted : number + 1 + first.length = number + (raw :: first).length := by
          simp only [List.length_cons]
          omega
        rw [shifted] at lineEqual ⊢
        refine ⟨raw :: first, inner, second, rfl, ?_, lineEqual, content, rfl⟩
        exact numberedFrom_append number [raw] first

theorem numberedFrom_concat
    (number : Nat)
    (first : List Text)
    {raw : Text}
    (content : isContent (Text.trim raw) = true) :
    numberedFrom number (first ++ [raw]) =
      numberedFrom number first ++ [⟨number + first.length, Text.trim raw⟩] := by
  rw [numberedFrom_append]
  simp [numberedFrom, content]

theorem startsWord_of_isContent
    {raw : Text}
    (content : isContent (Text.trim raw) = true) :
    Text.startsWord (Text.trim raw) = true := by
  apply Text.startsWord_trim
  intro empty
  simp [empty, isContent] at content

/-- Content lines begin inside a word. -/
theorem startsWord_of_mem_numberedFrom
    {number : Nat}
    {lines : List Text}
    {line : ContentLine}
    (member : line ∈ numberedFrom number lines) :
    Text.startsWord line.text = true := by
  obtain ⟨before, after, split⟩ := List.append_of_mem member
  obtain ⟨first, raw, second, -, -, rfl, content, -⟩ :=
    numberedFrom_eq_append_cons split
  exact startsWord_of_isContent content

theorem startsWord_of_mem_ofLines
    {lines : List Text}
    {line : ContentLine}
    (member : line ∈ ofLines lines) :
    Text.startsWord line.text = true :=
  startsWord_of_mem_numberedFrom member

end ContentLine

namespace Rejection

/-! ## Rejections as remarks -/

theorem isError_diagnostic (rejection : Rejection) : rejection.diagnostic.isError = true := by
  cases rejection <;> rfl

theorem message_diagnostic (rejection : Rejection) :
    rejection.diagnostic.message = rejection.message := by
  cases rejection <;> rfl

end Rejection

namespace Progress

/-! ## Runs -/

/-- Read content lines up to the first rejection, without concluding at their end. -/
def run (progress : Progress) : List ContentLine → Except Reading Progress
  | [] => .ok progress
  | line :: rest =>
      match progress.step line with
      | .ok next => next.run rest
      | .error fault => .error (.aborted progress.diagnostics (.atLine line fault))

/-- Reading is a run and the conclusion at its end. -/
theorem read_eq_run (progress : Progress) (lines : List ContentLine) :
    progress.read lines =
      match progress.run lines with
      | .ok last => last.finish
      | .error reading => reading := by
  induction lines generalizing progress with
  | nil => rfl
  | cons line rest induction =>
      rw [read, run]
      cases stepped : progress.step line with
      | ok next => exact induction next
      | error fault => rfl

theorem read_of_run
    {progress last : Progress}
    {lines : List ContentLine}
    (runs : progress.run lines = .ok last) :
    progress.read lines = last.finish := by
  rw [read_eq_run, runs]

theorem read_of_run_error
    {progress : Progress}
    {reading : Reading}
    {lines : List ContentLine}
    (fails : progress.run lines = .error reading) :
    progress.read lines = reading := by
  rw [read_eq_run, fails]

theorem run_append_of_run
    {progress middle : Progress}
    {first : List ContentLine}
    (runs : progress.run first = .ok middle)
    (second : List ContentLine) :
    progress.run (first ++ second) = middle.run second := by
  induction first generalizing progress with
  | nil =>
      rw [run, Except.ok.injEq] at runs
      rw [List.nil_append, runs]
  | cons line rest induction =>
      rw [List.cons_append, run]
      rw [run] at runs
      cases stepped : progress.step line with
      | ok next =>
          rw [stepped] at runs
          exact induction runs
      | error fault =>
          rw [stepped] at runs
          cases runs

theorem run_append_of_run_error
    {progress : Progress}
    {reading : Reading}
    {first : List ContentLine}
    (fails : progress.run first = .error reading)
    (second : List ContentLine) :
    progress.run (first ++ second) = .error reading := by
  induction first generalizing progress with
  | nil => simp [run] at fails
  | cons line rest induction =>
      rw [List.cons_append, run]
      rw [run] at fails
      cases stepped : progress.step line with
      | ok next =>
          rw [stepped] at fails
          exact induction fails
      | error fault =>
          rw [stepped] at fails
          exact fails

/-- A document that is cut in two is read by a run and a reading. -/
theorem read_append_of_run
    {progress middle : Progress}
    {first : List ContentLine}
    (runs : progress.run first = .ok middle)
    (second : List ContentLine) :
    progress.read (first ++ second) = middle.read second := by
  rw [read_eq_run, read_eq_run, run_append_of_run runs]

theorem run_singleton_of_step
    {progress next : Progress}
    {line : ContentLine}
    (stepped : progress.step line = .ok next) :
    progress.run [line] = .ok next := by
  rw [run, stepped]
  rfl

/-- A run over a list with a last line is a run and a step. -/
theorem run_concat
    {progress last : Progress}
    {lines : List ContentLine}
    {line : ContentLine}
    (runs : progress.run (lines ++ [line]) = .ok last) :
    ∃ middle, progress.run lines = .ok middle ∧ middle.step line = .ok last := by
  cases first : progress.run lines with
  | error reading =>
      rw [run_append_of_run_error first] at runs
      cases runs
  | ok middle =>
      rw [run_append_of_run first, run] at runs
      cases stepped : middle.step line with
      | ok next =>
          simp only [stepped, run, Except.ok.injEq] at runs
          exact ⟨middle, rfl, by rw [stepped, runs]⟩
      | error fault =>
          rw [stepped] at runs
          cases runs

/-- A run that fails has stopped at a line after a run that did not. -/
theorem run_eq_error
    {progress : Progress}
    {reading : Reading}
    {lines : List ContentLine}
    (fails : progress.run lines = .error reading) :
    ∃ before line after middle fault,
      lines = before ++ line :: after ∧
        progress.run before = .ok middle ∧
        middle.step line = .error fault ∧
        reading = .aborted middle.diagnostics (.atLine line fault) := by
  induction lines generalizing progress with
  | nil => simp [run] at fails
  | cons line rest induction =>
      rw [run] at fails
      cases stepped : progress.step line with
      | ok next =>
          rw [stepped] at fails
          obtain ⟨before, inner, after, middle, fault, rfl, runs, refused, equal⟩ :=
            induction fails
          refine ⟨line :: before, inner, after, middle, fault, rfl, ?_, refused, equal⟩
          rw [run, stepped]
          exact runs
      | error fault =>
          rw [stepped, Except.error.injEq] at fails
          exact ⟨[], line, rest, progress, fault, rfl, rfl, stepped, fails.symm⟩

/-- Where a schema has been read, all lines have been run through. -/
theorem exists_run_of_completed
    {progress : Progress}
    {lines : List ContentLine}
    {schema : Schema}
    {diagnostics : List Diagnostic}
    (completed : progress.read lines = .completed schema diagnostics) :
    ∃ last,
      progress.run lines = .ok last ∧ last.finish = .completed schema diagnostics := by
  rw [read_eq_run] at completed
  cases runs : progress.run lines with
  | error reading =>
      obtain ⟨_, _, _, _, _, -, -, -, rfl⟩ := run_eq_error runs
      simp [runs] at completed
  | ok last =>
      rw [runs] at completed
      exact ⟨last, rfl, completed⟩

/--
What holds at the start and is kept by every step holds after every run.
The lines read so far are part of what is kept.
-/
theorem run_invariant
    (invariant : List ContentLine → Progress → Prop)
    {progress last : Progress}
    {lines : List ContentLine}
    (initial : invariant [] progress)
    (kept :
      ∀ before line middle next,
        line ∈ lines →
        invariant before middle →
        middle.step line = .ok next →
        invariant (before ++ [line]) next)
    (runs : progress.run lines = .ok last) :
    invariant lines last := by
  induction lines using List.reverseRecOn generalizing last with
  | nil =>
      rw [run, Except.ok.injEq] at runs
      exact runs ▸ initial
  | append_singleton before line induction =>
      obtain ⟨middle, earlier, stepped⟩ := run_concat runs
      refine kept before line middle last (by simp) ?_ stepped
      exact induction
        (fun prior inner state next member =>
          kept prior inner state next (List.mem_append_left _ member))
        earlier

/-! ## Lines after the schema block -/

/-- The remark on the lines after the schema block, if there are any. -/
def trailing (name : Text) : List ContentLine → List Diagnostic
  | [] => []
  | first :: more =>
      [{ severity := .warning
         code := "StructuralError"
         message :=
           .cat ["Ignoring ", .ofNat (more.length + 1), " line(s) after the end of ", name]
         lineNumber := some first.number
         line := some first.text }]

theorem read_ignoring
    (first : ContentLine)
    (count : Nat)
    (schema : Schema)
    (diagnostics : List Diagnostic)
    (lines : List ContentLine) :
    read ⟨.ignoring first count, schema, diagnostics⟩ lines =
      .completed schema
        (diagnostics ++ [ignoredLines schema.name first (count + lines.length)]) := by
  induction lines generalizing count with
  | nil => rfl
  | cons line rest induction =>
      have shifted : count + 1 + rest.length = count + (line :: rest).length := by
        simp only [List.length_cons]
        omega
      rw [← shifted]
      exact induction (count + 1)

/-- After the schema block, every line is counted and none is refused. -/
theorem read_finished
    (schema : Schema)
    (diagnostics : List Diagnostic)
    (lines : List ContentLine) :
    read ⟨.finished, schema, diagnostics⟩ lines =
      .completed schema (diagnostics ++ trailing schema.name lines) := by
  cases lines with
  | nil => simp [read, finish, trailing]
  | cons first more =>
      rw [trailing, Nat.add_comm more.length 1]
      exact read_ignoring first 1 schema diagnostics more

end Progress

end TaggedUnion
