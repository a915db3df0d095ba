import TaggedUnion.Text.Basic

/-!
# Line breaks

A document is cut into lines at every line break, where a carriage return
followed by a line feed counts as one break.  A break ends a line, so a final
break opens no further line and the empty text has no line at all.
-/

namespace TaggedUnion.Text

/-- The characters that end a line. -/
def isLineBreak (character : Char) : Bool :=
  let code := character.toNat
  (0x0A ≤ code && code ≤ 0x0D) || (0x1C ≤ code && code ≤ 0x1E) ||
    code == 0x85 || code == 0x2028 || code == 0x2029

/-- Put a character in front of the first line, opening it if there is none. -/
def consLine (character : Char) : List Text → List Text
  | [] => [[character]]
  | line :: more => (character :: line) :: more

/-- The lines of a text, without their breaks. -/
def lines : Text → List Text
  | [] => []
  | '\r' :: '\n' :: rest => [] :: lines rest
  | character :: rest =>
      if isLineBreak character then
        [] :: lines rest
      else
        consLine character (lines rest)

/-- Read every carriage return, alone or before a line feed, as a line feed. -/
def unifyNewlines : Text → Text
  | [] => []
  | '\r' :: '\n' :: rest => '\n' :: unifyNewlines rest
  | '\r' :: rest => '\n' :: unifyNewlines rest
  | character :: rest => character :: unifyNewlines rest

/-- Groups of lines, one below the other. -/
def stack (groups : List (List Text)) : List Text :=
  groups.flatten

/-- The text made of the given lines, each ended by a line feed. -/
def unlines (lines : List Text) : Text :=
  lines.flatMap (· ++ ['\n'])

end TaggedUnion.Text
