import TaggedUnion.Document.Rejection
import TaggedUnion.Schema
import TaggedUnion.Text.Lines

/-!
# Reading documents

A document is read line by line.  Directives stand before the schema block,
fields, fixed lines and variant blocks inside it, and fields inside a variant
block; what follows the schema block is counted and ignored.  Reading ends
with the schema or with the first rejection, and with the diagnostics that
were made on the way.
-/

namespace TaggedUnion

/-- Where reading has got to. -/
inductive Scope where
  /-- Before the schema block. -/
  | directives
  /-- In the schema block. -/
  | body
  /-- In the block of a variant that has been read so far as given. -/
  | variant (current : Variant)
  /-- After the schema block. -/
  | finished
  /-- After the schema block, with the first line and the number of lines ignored since. -/
  | ignoring (first : ContentLine) (count : Nat)
deriving DecidableEq, Repr

/-- What has been read. -/
structure Progress where
  scope : Scope := .directives
  schema : Schema := {}
  diagnostics : List Diagnostic := []
deriving DecidableEq, Repr

/-- The result of reading a document. -/
inductive Reading where
  | completed (schema : Schema) (diagnostics : List Diagnostic)
  | aborted (earlier : List Diagnostic) (rejection : Rejection)
deriving DecidableEq, Repr

namespace Reading

/-- The schema, when the document has one. -/
def schema? : Reading → Option Schema
  | completed schema _ => some schema
  | aborted _ _ => none

/-- Why there is no schema, when there is none. -/
def reason? : Reading → Option Text
  | completed _ _ => none
  | aborted _ rejection => some rejection.message

/-- All remarks on the document; a rejection comes last. -/
def diagnostics : Reading → List Diagnostic
  | completed _ diagnostics => diagnostics
  | aborted earlier rejection => earlier ++ [rejection.diagnostic]

end Reading

namespace Progress

/-- The remark on a line before the schema block that is no directive. -/
def unknownDirective (line : ContentLine) : Diagnostic :=
  { severity := .warning
    code := "UnknownTopLevelDirective"
    message := "Unknown command"
    lineNumber := some line.number
    line := some line.text }

/-- The remark on the line that closes the schema block. -/
def completion (name : Text) (line : ContentLine) : Diagnostic :=
  { severity := .info
    code := "ParsingCompleted"
    message := .cat ["Parsing completed for ", name]
    lineNumber := some line.number }

/-- The remark on the lines after the schema block, given the first of them and their count. -/
def ignoredLines (name : Text) (first : ContentLine) (count : Nat) : Diagnostic :=
  { severity := .warning
    code := "StructuralError"
    message := .cat ["Ignoring ", .ofNat count, " line(s) after the end of ", name]
    lineNumber := some first.number
    line := some first.text }

/-- A field line is a type and a name. -/
def readField (words : List Text) : Except LineFault Field :=
  match words with
  | [type, name] => .ok ⟨type, name⟩
  | _ => .error (.wordCount words.length)

/-- The words of the directive that lets handlers be left out. -/
def allowNullsDirective : List Text :=
  ["Set", "AllowNulls"]

/-- The words of the directive that lists the variants for serializers. -/
def knownTypesDirective : List Text :=
  ["Set", "KnownTypes"]

/-- A directive sets one of the two flags. -/
def readDirective (progress : Progress) (line : ContentLine) : Progress :=
  if line.words = allowNullsDirective then
    { progress with schema := { progress.schema with allowNulls := true } }
  else if line.words = knownTypesDirective then
    { progress with schema := { progress.schema with knownTypes := true } }
  else
    { progress with diagnostics := progress.diagnostics ++ [unknownDirective line] }

/--
In the schema block a line is, by its first character, a fixed line, an
optional field or a demanded field.
-/
def readMember (schema : Schema) (line : ContentLine) : Except LineFault Schema :=
  match line.text with
  | '&' :: fixed => .ok { schema with fixedLines := schema.fixedLines ++ [fixed] }
  | '%' :: _ => do
      let field ← readField line.words
      match field.type.tail with
      | [] => .error .missingType
      | type =>
          .ok { schema with defaultFields := schema.defaultFields ++ [⟨type, field.name⟩] }
  | _ => do
      let field ← readField line.words
      .ok { schema with baseFields := schema.baseFields ++ [field] }

/-- The name of the block that a line opens: its first word, if another follows. -/
def blockName (line : ContentLine) : Except LineFault Text :=
  match line.words with
  | name :: _ :: _ => .ok name
  | _ => .error .openedUnnamed

/-- Read one content line. -/
def step (progress : Progress) (line : ContentLine) : Except LineFault Progress :=
  match progress.scope, line.marker with
  | .finished, _ => .ok { progress with scope := .ignoring line 1 }
  | .ignoring first count, _ => .ok { progress with scope := .ignoring first (count + 1) }
  | .directives, .opens => do
      let name ← blockName line
      .ok { progress with scope := .body, schema := { progress.schema with name } }
  | .directives, .closes => .error .closedTooOften
  | .directives, .plain => .ok (progress.readDirective line)
  | .body, .opens => do
      let name ← blockName line
      .ok { progress with scope := .variant { name } }
  | .body, .closes =>
      .ok
        { progress with
          scope := .finished
          diagnostics := progress.diagnostics ++ [completion progress.schema.name line] }
  | .body, .plain => do
      let schema ← readMember progress.schema line
      .ok { progress with schema }
  | .variant _, .opens => .error .openedTooDeep
  | .variant current, .closes =>
      .ok
        { progress with
          scope := .body
          schema := { progress.schema with variants := progress.schema.variants ++ [current] } }
  | .variant current, .plain => do
      let field ← readField line.words
      .ok
        { progress with
          scope := .variant { current with fields := current.fields ++ [field] } }

/-- The result once there are no more lines. -/
def finish (progress : Progress) : Reading :=
  match progress.scope with
  | .directives => .aborted progress.diagnostics .noBlock
  | .body => .aborted progress.diagnostics (.unclosed progress.schema.name)
  | .variant current => .aborted progress.diagnostics (.unclosed current.name)
  | .finished => .completed progress.schema progress.diagnostics
  | .ignoring first count =>
      .completed progress.schema
        (progress.diagnostics ++ [ignoredLines progress.schema.name first count])

/-- Read content lines up to the first rejection. -/
def read (progress : Progress) : List ContentLine → Reading
  | [] => progress.finish
  | line :: rest =>
      match progress.step line with
      | .ok next => next.read rest
      | .error fault => .aborted progress.diagnostics (.atLine line fault)

end Progress

namespace Reading

/-- Read the lines of a document. -/
def ofLines (lines : List Text) : Reading :=
  Progress.read {} (ContentLine.ofLines lines)

/-- Read a document held in one text. -/
def ofText (text : Text) : Reading :=
  ofLines (Text.lines text)

end Reading

end TaggedUnion
