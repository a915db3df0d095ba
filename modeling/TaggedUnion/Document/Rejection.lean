import TaggedUnion.Document.Line
import TaggedUnion.Diagnostic

/-!
# Rejections

The reasons for which a document has no schema.  Each is noticed at a line,
except for the two that only the end of the document shows.
-/

namespace TaggedUnion

/-- Why a line cannot stand where it stands. -/
inductive LineFault where
  /-- A block is opened inside a variant. -/
  | openedTooDeep
  /-- A block is opened by a line with no other word. -/
  | openedUnnamed
  /-- A block is closed where none is open. -/
  | closedTooOften
  /-- A field line does not consist of a type and a name. -/
  | wordCount (found : Nat)
  /-- The mark of an optional field is followed by no type. -/
  | missingType
deriving DecidableEq, Repr

namespace LineFault

/-- The class that reports sort the fault into. -/
def code : LineFault → Text
  | openedTooDeep | openedUnnamed | closedTooOften => "StructuralError"
  | wordCount _ | missingType => "FieldArityError"

/-- The fault in words. -/
def message : LineFault → Text
  | openedTooDeep => "too many \x7b brackets"
  | openedUnnamed => "block opened without a name"
  | closedTooOften => "too many \x7d brackets"
  | wordCount found =>
      .cat ["There should be exactly two words on the line, found ", .ofNat found]
  | missingType => "Missing type after %"

end LineFault

/-- Why a document has no schema. -/
inductive Rejection where
  /-- A line cannot stand where it stands. -/
  | atLine (line : ContentLine) (fault : LineFault)
  /-- The document ended before any block was opened. -/
  | noBlock
  /-- The document ended inside the block with the given name. -/
  | unclosed (name : Text)
deriving DecidableEq, Repr

namespace Rejection

/-- The rejection in words. -/
def message : Rejection → Text
  | atLine _ fault => fault.message
  | noBlock => "no schema block found"
  | unclosed name => .cat ["unclosed \x7b bracket for ", name]

/-- The rejection as the error that ends a document's diagnostics. -/
def diagnostic : Rejection → Diagnostic
  | atLine line fault =>
      { severity := .error
        code := fault.code
        message := fault.message
        lineNumber := some line.number
        line := some line.text }
  | rejection =>
      { severity := .error
        code := "StructuralError"
        message := rejection.message }

end Rejection

end TaggedUnion
