import TaggedUnion.Text.Basic

/-!
# Occurrences of one text in another

Searching and replacing are leftmost and without overlap.  The empty text
occurs before every character and once more at the end.
-/

namespace TaggedUnion.Text

/-- What follows `start` in a text that begins with it. -/
def after? : (start : Text) → Text → Option Text
  | [], text => some text
  | _ :: _, [] => none
  | expected :: start, character :: text =>
      if expected = character then after? start text else none

/-- Whether the text begins with `start`. -/
def startsWith (start text : Text) : Bool :=
  start.isPrefixOf text

/-- Whether `part` occurs somewhere in the text. -/
def hasPart (part : Text) : Text → Bool
  | [] => part.isEmpty
  | character :: rest => part.isPrefixOf (character :: rest) || hasPart part rest

/-- Cut the text around the first occurrence of `part`. -/
def splitAt? (part : Text) : Text → Option (Text × Text)
  | [] => if part.isEmpty then some ([], []) else none
  | character :: rest =>
      match after? part (character :: rest) with
      | some tail => some ([], tail)
      | none => (splitAt? part rest).map fun (head, tail) => (character :: head, tail)

/--
Replace occurrences of a non-empty `part`, at most `limit` of them; `skip`
counts the characters of the occurrence that is being passed over.
-/
def replaceFrom (part replacement : Text) : (skip limit : Nat) → Text → Text
  | _, _, [] => []
  | skip + 1, limit, _ :: rest => replaceFrom part replacement skip limit rest
  | 0, 0, text => text
  | 0, limit + 1, character :: rest =>
      if part.isPrefixOf (character :: rest) then
        replacement ++ replaceFrom part replacement (part.length - 1) limit rest
      else
        character :: replaceFrom part replacement 0 (limit + 1) rest

/-- Put `insertion` before each character and at the end, at most `limit` times. -/
def interleave (insertion : Text) : (limit : Nat) → Text → Text
  | 0, text => text
  | _ + 1, [] => insertion
  | limit + 1, character :: rest => insertion ++ character :: interleave insertion limit rest

/-- Replace the first `limit` occurrences of `part`, or all of them without a limit. -/
def replace (part replacement : Text) (limit : Option Nat) (text : Text) : Text :=
  let count := limit.getD (text.length + 1)
  match part with
  | [] => interleave replacement count text
  | _ => replaceFrom part replacement 0 count text

end TaggedUnion.Text
