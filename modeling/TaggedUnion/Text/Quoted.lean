import TaggedUnion.Text.Printable

/-!
# Quoted text

A quoted text stands between two quote marks: single ones, unless the text
holds a single quote and no double one.  Inside, the mark and the backslash
are escaped, the line feed, carriage return and tab have letters of their own,
and an unprintable character is written by its code in hexadecimal.
-/

namespace TaggedUnion.Text

/-- The code in lower-case hexadecimal, filled with zeros up to `width` digits. -/
def hexCode (width code : Nat) : Text :=
  let digits := Nat.toDigits 16 code
  List.replicate (width - digits.length) '0' ++ digits

/-- How a character is written between quote marks `mark`. -/
def escaped (mark character : Char) : Text :=
  let code := character.toNat
  if character = mark ∨ character = '\\' then ['\\', character]
  else if character = '\n' then ['\\', 'n']
  else if character = '\r' then ['\\', 'r']
  else if character = '\t' then ['\\', 't']
  else if isPrintable character then [character]
  else if code < 0x100 then '\\' :: 'x' :: hexCode 2 code
  else if code < 0x10000 then '\\' :: 'u' :: hexCode 4 code
  else '\\' :: 'U' :: hexCode 8 code

/-- The mark that quotes a text with the fewest escapes, a single quote if it can be. -/
def quoteMark (text : Text) : Char :=
  if '\'' ∈ text ∧ '"' ∉ text then '"' else '\''

/-- The text between quote marks. -/
def quote (text : Text) : Text :=
  let mark := quoteMark text
  mark :: text.flatMap (escaped mark) ++ [mark]

/-- Quoted texts in square brackets. -/
def quoteList (texts : List Text) : Text :=
  cat ["[", joinWith ", " (texts.map quote), "]"]

end TaggedUnion.Text
