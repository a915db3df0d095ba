import TaggedUnion.Text.Basic

/-!
# Plain text

Text that is shown to the user loses the control sequences that set colours
and move the cursor: an escape character, an opening bracket, digits, question
marks and semicolons, and a letter.
-/

namespace TaggedUnion.Text

/-- Whether a character can stand between the bracket and the letter of a sequence. -/
def isParameter (character : Char) : Bool :=
  character.isDigit || character = ';' || character = '?'

/-- The length of the control sequence that a text begins with after its escape character. -/
def sequenceLength? : Text → Option Nat
  | '[' :: rest =>
      let parameters := rest.takeWhile isParameter
      match rest.drop parameters.length with
      | letter :: _ => if letter.isAlpha then some (parameters.length + 2) else none
      | [] => none
  | _ => none

/-- The text without control sequences; `skip` counts the characters of one that is left out. -/
def plainFrom : (skip : Nat) → Text → Text
  | _, [] => []
  | skip + 1, _ :: rest => plainFrom skip rest
  | 0, character :: rest =>
      match if character = '\x1b' then sequenceLength? rest else none with
      | some length => plainFrom length rest
      | none => character :: plainFrom 0 rest

/-- The text without control sequences. -/
def plain (text : Text) : Text :=
  plainFrom 0 text

end TaggedUnion.Text
