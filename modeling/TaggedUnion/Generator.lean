import TaggedUnion.Document.Reading
import TaggedUnion.Rule
import TaggedUnion.Artifact.Layout
import TaggedUnion.Text.Quoted

/-!
# Generating artifacts

A generator reads a document, applies its rules to the schema and lays out the
artifact.  Its rules are fixed when it is made, while the other settings are
looked up whenever they are needed.
-/

namespace TaggedUnion

/-- A generator: its settings, and the rules it was made with. -/
structure Generator where
  settings : Settings
  rules : List Rule

/-- Why there is no generator, or no answer from one. -/
inductive GeneratorError where
  /-- There is no such target language. -/
  | unknownLanguage (name : Text)
  /-- The ending of artifact names is not a text. -/
  | extensionNotText (given : Json)

namespace GeneratorError

/-- The error in words. -/
def message : GeneratorError → Text
  | unknownLanguage name => Text.quote name
  | extensionNotText given =>
      .cat ["can only concatenate str (not \"", given.kindName, "\") to str"]

end GeneratorError

/-- What became of a document. -/
inductive Generation where
  /-- The document has no schema. -/
  | unreadable (earlier : List Diagnostic) (rejection : Rejection)
  /-- The schema breaks an enforced rule. -/
  | invalid (schema : Schema) (diagnostics : List Diagnostic) (reason : Text)
  /-- The document has an artifact. -/
  | produced (schema : Schema) (diagnostics : List Diagnostic) (artifact outputName : Text)
deriving DecidableEq, Repr

namespace Generation

/-- The schema, when the document has one. -/
def schema? : Generation → Option Schema
  | unreadable _ _ => none
  | invalid schema _ _ => some schema
  | produced schema _ _ _ => some schema

/-- All remarks on the document. -/
def diagnostics : Generation → List Diagnostic
  | unreadable earlier rejection => earlier ++ [rejection.diagnostic]
  | invalid _ diagnostics _ => diagnostics
  | produced _ diagnostics _ _ => diagnostics

/-- The artifact, when there is one. -/
def artifact? : Generation → Option Text
  | produced _ _ artifact _ => some artifact
  | _ => none

/-- The file name of the artifact, when there is one. -/
def outputName? : Generation → Option Text
  | produced _ _ _ outputName => some outputName
  | _ => none

/-- Why there is no artifact, when there is none. -/
def reason? : Generation → Option Text
  | unreadable _ rejection => some rejection.message
  | invalid _ _ reason => some reason
  | produced _ _ _ _ => none

end Generation

namespace Generator

/-- The name of the only target language. -/
def languageName : Text :=
  "cs"

/-- Make a generator, with the rules of the settings unless others are given. -/
def make
    (settings : Settings)
    (rules : Option (List Rule)) :
    Generator :=
  ⟨settings, rules.getD (Rule.ofSettings settings)⟩

/-- Make a generator for the language with the given name. -/
def forLanguage
    (language : Text)
    (settings : Settings)
    (rules : Option (List Rule)) :
    Except GeneratorError Generator :=
  if language = languageName then
    .ok (make settings rules)
  else
    .error (.unknownLanguage language)

/-- The remark on an artifact's origin, when the settings ask for one. -/
def remark (settings : Settings) (source : Option Text) : Option Text :=
  if settings.addGenerationComment.isOn then
    some (Artifact.generationComment source)
  else
    none

/-- Lay out the artifact of a schema. -/
def render (settings : Settings) (source : Option Text) (schema : Schema) : Text :=
  Artifact.render (remark settings source) schema

/-- The file name of a schema's artifact. -/
def outputName (settings : Settings) (schema : Schema) : Except GeneratorError Text :=
  match settings.outputExtension with
  | .text extension => .ok (schema.name ++ extension)
  | given => .error (.extensionNotText given)

/-- Turn a document that has been read into an artifact. -/
def ofReading
    (generator : Generator)
    (source : Option Text) :
    Reading → Except GeneratorError Generation
  | .aborted earlier rejection => .ok (.unreadable earlier rejection)
  | .completed schema earlier =>
      let remarks := Rule.checkAll generator.rules schema
      let diagnostics := earlier ++ remarks
      match remarks.find? (·.isError) with
      | some first => .ok (.invalid schema diagnostics first.message)
      | none => do
          let artifact := render generator.settings source schema
          let name ← outputName generator.settings schema
          .ok (.produced schema diagnostics artifact name)

/-- Turn the lines of a document into an artifact. -/
def ofLines
    (generator : Generator)
    (source : Option Text)
    (lines : List Text) :
    Except GeneratorError Generation :=
  generator.ofReading source (Reading.ofLines lines)

/-- Turn a document held in one text into an artifact. -/
def ofText
    (generator : Generator)
    (source : Option Text)
    (text : Text) :
    Except GeneratorError Generation :=
  generator.ofLines source (Text.lines text)

end Generator

end TaggedUnion
