import TaggedUnion.Text.Blank

/-!
# Content lines

Blank lines and comments say nothing.  The other lines of a document are its
content: each keeps its number and its text without the blanks around it, and
its last word tells whether it opens a block, closes one or does neither.
-/

namespace TaggedUnion

/-- A line that says something, with its number counted from one. -/
structure ContentLine where
  number : Nat
  text : Text
deriving DecidableEq, Repr

/-- What a content line does to the nesting of blocks. -/
inductive Marker where
  | opens
  | closes
  | plain
deriving DecidableEq, Repr

namespace ContentLine

/-- Whether a trimmed line is content: neither empty nor a comment. -/
def isContent : Text → Bool
  | [] => false
  | character :: _ => character ≠ '#'

/-- The content among raw lines, the first of which has the given number. -/
def numberedFrom (number : Nat) : List Text → List ContentLine
  | [] => []
  | raw :: rest =>
      let text := Text.trim raw
      if isContent text then
        ⟨number, text⟩ :: numberedFrom (number + 1) rest
      else
        numberedFrom (number + 1) rest

/-- The content lines of a document. -/
def ofLines (lines : List Text) : List ContentLine :=
  numberedFrom 1 lines

/-- The words of the line. -/
def words (line : ContentLine) : List Text :=
  Text.words line.text

/-- A line is marked by its last word. -/
def marker (line : ContentLine) : Marker :=
  match line.words.getLast? with
  | some ['{'] => .opens
  | some ['}'] => .closes
  | _ => .plain

end ContentLine

end TaggedUnion
