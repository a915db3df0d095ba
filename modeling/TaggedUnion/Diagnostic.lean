import TaggedUnion.Text.Basic

/-!
# Diagnostics

A diagnostic is what one stage has to say about a document: how grave it is,
a code, a message, and, where known, the line and the document it concerns.
-/

namespace TaggedUnion

/-- How grave a diagnostic is. -/
inductive Severity where
  | info
  | warning
  | error
deriving DecidableEq, Repr

namespace Severity

/-- The severity's name in reports. -/
def name : Severity → Text
  | info => "info"
  | warning => "warning"
  | error => "error"

/-- The severity's name in log lines. -/
def label : Severity → Text
  | info => "INFO"
  | warning => "WARNING"
  | error => "ERROR"

/-- Severities from the mildest to the gravest. -/
def rank : Severity → Nat
  | info => 0
  | warning => 1
  | error => 2

/-- The severity with the given name. -/
def ofName? (name : Text) : Option Severity :=
  [info, warning, error].find? (·.name = name)

end Severity

/-- A remark on a document. -/
structure Diagnostic where
  severity : Severity
  code : Text
  message : Text
  lineNumber : Option Int := none
  /-- The text of the line, without the blanks around it. -/
  line : Option Text := none
  /-- The document that the remark is about. -/
  source : Option Text := none
deriving DecidableEq, Repr

namespace Diagnostic

/-- Errors keep a document from having an artifact. -/
def isError (diagnostic : Diagnostic) : Bool :=
  diagnostic.severity = .error

/-- The diagnostic as a remark on the given document. -/
def withSource (source : Text) (diagnostic : Diagnostic) : Diagnostic :=
  { diagnostic with source := some source }

/-- Where the remark belongs: the document and the line, as far as they are known. -/
def location (diagnostic : Diagnostic) : Text :=
  let source := diagnostic.source.getD []
  match diagnostic.lineNumber with
  | none => source
  | some number =>
      if source.isEmpty then .cat ["line ", .ofInt number]
      else .cat [source, ":", .ofInt number]

/-- The diagnostic on one line: location, code, message and the line's text. -/
def format (diagnostic : Diagnostic) : Text :=
  let location := diagnostic.location
  let line := diagnostic.line.getD []
  .cat
    [if location.isEmpty then [] else .cat [location, ": "],
      "[", diagnostic.code, "] ", diagnostic.message,
      if line.isEmpty then [] else .cat [": ", line]]

end Diagnostic

end TaggedUnion
