import TaggedUnion.Text.Basic

/-!
# Blank characters, trimming and words

A blank is a character of the Unicode white-space class or one of the four
information separators U+001C to U+001F.  Trimming removes blanks at the ends
of a text, and its words are the maximal runs without a blank.
-/

namespace TaggedUnion.Text

/-- The characters that separate words. -/
def isBlank (character : Char) : Bool :=
  let code := character.toNat
  (0x09 ≤ code && code ≤ 0x0D) || (0x1C ≤ code && code ≤ 0x20) ||
    code == 0x85 || code == 0xA0 || code == 0x1680 ||
    (0x2000 ≤ code && code ≤ 0x200A) || code == 0x2028 || code == 0x2029 ||
    code == 0x202F || code == 0x205F || code == 0x3000

/-- The text without its leading blanks. -/
def trimStart (text : Text) : Text :=
  text.dropWhile isBlank

/-- The text without its trailing blanks. -/
def trimEnd (text : Text) : Text :=
  (text.reverse.dropWhile isBlank).reverse

/-- The text without the blanks at either end. -/
def trim (text : Text) : Text :=
  trimEnd (trimStart text)

/-- A text starts inside a word when its first character is not blank. -/
def startsWord : Text → Bool
  | [] => false
  | character :: _ => !isBlank character

/-- The maximal blank-free runs of a text, in order. -/
def words : Text → List Text
  | [] => []
  | character :: rest =>
      if isBlank character then
        words rest
      else
        match startsWord rest, words rest with
        | true, word :: more => (character :: word) :: more
        | _, more => [character] :: more

end TaggedUnion.Text
