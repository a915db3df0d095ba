import TaggedUnion.Json.Basic
import TaggedUnion.Text.Occurrence

/-!
# Reading JSON

The reader takes the JSON of RFC 8259 and the three words `NaN`, `Infinity`
and `-Infinity`.  Of members with one name the last one counts.  Control
characters must be escaped in strings.  Whole numbers have a bounded number of
digits, and arrays and objects are nested to a bounded depth; what is beyond
the bounds is refused where it starts, whatever follows.

Strings are read as texts.  The escape of a surrogate outside of a pair stands for
no character; U+FFFD takes its place.
-/

namespace TaggedUnion

/-- The values that hold other values. -/
inductive Container where
  | array
  | object
deriving DecidableEq, Repr

namespace Container

/-- The name of the container in messages. -/
def name : Container → Text
  | array => "array"
  | object => "object"

end Container

namespace Json

/-- The greatest number of digits of a whole number. -/
def mostDigits : Nat := 4300

/-- The greatest number of containers inside one another. -/
def deepest : Nat := 984

end Json

/-- Why a text is not read as a JSON value. -/
inductive JsonError where
  /-- The text is not of the grammar. -/
  | malformed
  /-- A whole number has too many digits. -/
  | tooManyDigits (count : Nat)
  /-- A container stands inside too many others. -/
  | tooDeep (container : Container)
deriving DecidableEq, Repr

namespace JsonError

/-- The error in words: what is wrong with the grammar is not told. -/
def message : JsonError → Text
  | malformed => []
  | tooManyDigits count =>
      .cat
        ["Exceeds the limit (", .ofNat Json.mostDigits,
          " digits) for integer string conversion: value has ", .ofNat count,
          " digits; use sys.set_int_max_str_digits() to increase the limit"]
  | tooDeep container =>
      .cat
        ["maximum recursion depth exceeded while decoding a JSON ", container.name,
          " from a unicode string"]

end JsonError

namespace Json

/-- The text without the blanks that may stand between tokens. -/
def skipBlanks (text : Text) : Text :=
  text.dropWhile fun character =>
    character = ' ' || character = '\t' || character = '\n' || character = '\r'

/-- The value of a hexadecimal digit. -/
def hexValue? (character : Char) : Option Nat :=
  let code := character.toNat
  if 48 ≤ code ∧ code ≤ 57 then some (code - 48)
  else if 65 ≤ code ∧ code ≤ 70 then some (code - 55)
  else if 97 ≤ code ∧ code ≤ 102 then some (code - 87)
  else none

/-- The number written by four hexadecimal digits. -/
def hexUnit? (first second third fourth : Char) : Option Nat := do
  let first ← hexValue? first
  let second ← hexValue? second
  let third ← hexValue? third
  let fourth ← hexValue? fourth
  some (((first * 16 + second) * 16 + third) * 16 + fourth)

/-- The character that a one-letter escape stands for. -/
def simpleEscape? : Char → Option Char
  | '"' => some '"'
  | '\\' => some '\\'
  | '/' => some '/'
  | 'b' => some '\x08'
  | 'f' => some '\x0c'
  | 'n' => some '\n'
  | 'r' => some '\r'
  | 't' => some '\t'
  | _ => none

/-- The replacement of a leading surrogate that no trailing one follows. -/
def unpaired : Option Nat → Text
  | none => []
  | some _ => ['�']

/--
Read a string after its opening quote.  `leading` is a leading surrogate just
read, which a trailing one completes to a character.
-/
def readString (leading : Option Nat) : Text → Except JsonError (Text × Text)
  | [] => .error .malformed
  | '"' :: rest => .ok (unpaired leading, rest)
  | '\\' :: 'u' :: first :: second :: third :: fourth :: rest =>
      match hexUnit? first second third fourth, leading with
      | none, _ => .error .malformed
      | some unit, some high =>
          if 0xDC00 ≤ unit ∧ unit < 0xE000 then do
            let (tail, rest) ← readString none rest
            .ok (Char.ofNat (0x10000 + (high - 0xD800) * 0x400 + (unit - 0xDC00)) :: tail, rest)
          else if 0xD800 ≤ unit ∧ unit < 0xDC00 then do
            let (tail, rest) ← readString (some unit) rest
            .ok ('�' :: tail, rest)
          else do
            let (tail, rest) ← readString none rest
            .ok ('�' :: Char.ofNat unit :: tail, rest)
      | some unit, none =>
          if 0xD800 ≤ unit ∧ unit < 0xDC00 then
            readString (some unit) rest
          else do
            let (tail, rest) ← readString none rest
            let character := if 0xDC00 ≤ unit ∧ unit < 0xE000 then '�' else Char.ofNat unit
            .ok (character :: tail, rest)
  | '\\' :: letter :: rest =>
      match simpleEscape? letter with
      | none => .error .malformed
      | some character => do
          let (tail, rest) ← readString none rest
          .ok (unpaired leading ++ character :: tail, rest)
  | character :: rest =>
      if character.toNat < 0x20 ∨ character = '\\' then
        .error .malformed
      else do
        let (tail, rest) ← readString none rest
        .ok (unpaired leading ++ character :: tail, rest)

/-- The number written by decimal digits. -/
def natOfDigits (digits : Text) : Nat :=
  digits.foldl (fun number digit => number * 10 + (digit.toNat - 48)) 0

/-- The leading decimal digits and what follows them. -/
def spanDigits (text : Text) : Text × Text :=
  text.span Char.isDigit

/-- The digits of a whole part: a zero alone, or digits that do not start with one. -/
def wholePart? (text : Text) : Option (Text × Text) :=
  match text with
  | '0' :: rest => some (['0'], rest)
  | _ =>
      match spanDigits text with
      | ([], _) => none
      | parts => some parts

/-- The digits of a fraction, when a point and a digit come first. -/
def fractionPart (text : Text) : Option Text × Text :=
  match text with
  | '.' :: rest =>
      match spanDigits rest with
      | ([], _) => (none, text)
      | (digits, rest) => (some digits, rest)
  | _ => (none, text)

/-- An exponent, when its letter, perhaps a sign, and a digit come first. -/
def exponentPart (text : Text) : Option Int × Text :=
  let signed : Option (Int × Text) :=
    match text with
    | letter :: sign :: rest =>
        if letter ≠ 'e' ∧ letter ≠ 'E' then none
        else if sign = '-' then some (-1, rest)
        else if sign = '+' then some (1, rest)
        else some (1, sign :: rest)
    | _ => none
  match signed with
  | none => (none, text)
  | some (sign, rest) =>
      match spanDigits rest with
      | ([], _) => (none, text)
      | (digits, rest) => (some (sign * natOfDigits digits), rest)

/-- The binary64 number nearest to a decimal. -/
def nearestReal (negative : Bool) (digits : Nat) (exponent : Int) : Float :=
  let leading := exponent + (Nat.toDigits 10 digits).length
  let magnitude : Float :=
    if digits = 0 ∨ leading < -400 then 0.0
    else if 400 < leading then 1.0 / 0.0
    else Float.ofScientific digits (exponent < 0) exponent.natAbs
  if negative then -magnitude else magnitude

/-- Read a number. -/
def readNumber (text : Text) : Except JsonError (Json × Text) :=
  let (negative, unsigned) : Bool × Text :=
    match text with
    | '-' :: rest => (true, rest)
    | _ => (false, text)
  match wholePart? unsigned with
  | none => .error .malformed
  | some (whole, rest) =>
      let (fraction, rest) := fractionPart rest
      let (exponent, rest) := exponentPart rest
      match fraction, exponent with
      | none, none =>
          if mostDigits < whole.length then
            .error (.tooManyDigits whole.length)
          else
            let number : Int := natOfDigits whole
            .ok (.int (if negative then -number else number), rest)
      | _, _ =>
          let places := fraction.getD []
          let shift := exponent.getD 0 - places.length
          .ok (.real (nearestReal negative (natOfDigits (whole ++ places)) shift), rest)

/-- The words that stand for values. -/
def words : List (Text × Json) :=
  [("null", .null), ("true", .bool true), ("false", .bool false),
    ("NaN", .real (0.0 / 0.0)), ("Infinity", .real (1.0 / 0.0)),
    ("-Infinity", .real (-1.0 / 0.0))]

/-- Read a word or a number. -/
def readScalar (text : Text) : Except JsonError (Json × Text) :=
  match words.findSome? fun (word, value) => (Text.after? word text).map ((value, ·)) with
  | some result => .ok result
  | none => readNumber text

mutual

/--
Read a value; `room` is the number of containers that may stand inside one
another, and the fuel bounds the nesting and the number of items together: each
character takes up two of it at most.
-/
def readValue : (fuel : Nat) → (room : Nat) → Text → Except JsonError (Json × Text)
  | 0, _, _ => .error .malformed
  | fuel + 1, room, input =>
      match input, room with
      | '"' :: rest, _ => do
          let (value, rest) ← readString none rest
          .ok (.text value, rest)
      | '[' :: _, 0 => .error (.tooDeep .array)
      | '[' :: rest, room + 1 =>
          match skipBlanks rest with
          | ']' :: rest => .ok (.array [], rest)
          | rest => do
              let (items, rest) ← readItems fuel room rest
              .ok (.array items, rest)
      | '{' :: _, 0 => .error (.tooDeep .object)
      | '{' :: rest, room + 1 =>
          match skipBlanks rest with
          | '}' :: rest => .ok (.object [], rest)
          | rest => do
              let (members, rest) ← readMembers fuel room [] rest
              .ok (.object members, rest)
      | _, _ => readScalar input

/-- Read the items of an array up to its closing bracket. -/
def readItems : (fuel : Nat) → (room : Nat) → Text → Except JsonError (List Json × Text)
  | 0, _, _ => .error .malformed
  | fuel + 1, room, input => do
      let (item, rest) ← readValue fuel room input
      match skipBlanks rest with
      | ']' :: rest => .ok ([item], rest)
      | ',' :: rest => do
          let (items, rest) ← readItems fuel room (skipBlanks rest)
          .ok (item :: items, rest)
      | _ => .error .malformed

/-- Read the members of an object up to its closing brace, after those read before. -/
def readMembers :
    (fuel : Nat) → (room : Nat) → (earlier : List (Text × Json)) → Text →
      Except JsonError (List (Text × Json) × Text)
  | 0, _, _, _ => .error .malformed
  | fuel + 1, room, earlier, input =>
      match input with
      | '"' :: rest => do
          let (name, rest) ← readString none rest
          match skipBlanks rest with
          | ':' :: rest => do
              let (value, rest) ← readValue fuel room (skipBlanks rest)
              let members := setMember name value earlier
              match skipBlanks rest with
              | '}' :: rest => .ok (members, rest)
              | ',' :: rest => readMembers fuel room members (skipBlanks rest)
              | _ => .error .malformed
          | _ => .error .malformed
      | _ => .error .malformed

end

/-- Read a text that holds one value, nested to at most the given depth, and nothing else. -/
def readNested (depth : Nat) (text : Text) : Except JsonError Json := do
  let (value, rest) ← readValue (2 * text.length + 2) depth (skipBlanks text)
  match skipBlanks rest with
  | [] => .ok value
  | _ => .error .malformed

/-- Read a text that holds one value and nothing else. -/
def read (text : Text) : Except JsonError Json :=
  readNested deepest text

end Json

end TaggedUnion
