/-!
# Text

Every piece of text in the library is a list of characters, so that its rules
are recursions over that list.  String literals stand for their characters.

A character is a Unicode scalar value, so every text has a UTF-8 form.  A string
with a surrogate outside of a pair has none and is not a text: the library is about
documents, settings, artifacts and names of files that are texts, and says nothing
about the strings that no file could hold.
-/

namespace TaggedUnion

/-- Text is a list of characters, each of them a Unicode scalar value. -/
abbrev Text := List Char

namespace Text

instance : Coe String Text where
  coe := String.toList

/-- The pieces, one after the other. -/
def cat (pieces : List Text) : Text :=
  pieces.flatten

/-- The pieces, with the separator between neighbours. -/
def joinWith (separator : Text) (pieces : List Text) : Text :=
  separator.intercalate pieces

/-- A natural number in decimal digits. -/
def ofNat (number : Nat) : Text :=
  Nat.toDigits 10 number

/-- An integer in decimal digits, with a minus sign below zero. -/
def ofInt : Int → Text
  | .ofNat number => ofNat number
  | .negSucc number => '-' :: ofNat (number + 1)

/-- Whether a list comes before another or is the same, by the order of their first difference. -/
def lexicographic {α : Type} [DecidableEq α] (precedes : α → α → Bool) :
    List α → List α → Bool
  | [], _ => true
  | _ :: _, [] => false
  | first :: left, second :: right =>
      if first = second then lexicographic precedes left right else precedes first second

/-- Whether a text comes before another or is the same, by the codes of its characters. -/
def inOrder : Text → Text → Bool :=
  lexicographic fun first second => first.toNat ≤ second.toNat

end Text

end TaggedUnion
