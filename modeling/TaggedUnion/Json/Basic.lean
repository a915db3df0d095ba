import TaggedUnion.Text.Quoted
import TaggedUnion.Decimal.Shortest

/-!
# JSON values

Settings may hold any JSON value.  A value can serve as a switch, by being
empty or not, and as text, by being written out; whole and real numbers are
kept apart, and the members of an object keep their order.
-/

namespace TaggedUnion

/-- A JSON value. -/
inductive Json where
  | null
  | bool (value : Bool)
  | int (value : Int)
  | real (value : Float)
  | text (value : Text)
  | array (items : List Json)
  | object (members : List (Text × Json))

namespace Json

/-- A switch is off for the empty values: null, false, zero and what holds nothing. -/
def isOn : Json → Bool
  | null => false
  | bool value => value
  | int value => value ≠ 0
  | real value => value != 0.0
  | text value => !value.isEmpty
  | array items => !items.isEmpty
  | object members => !members.isEmpty

/-- The name of a value's kind in messages. -/
def kindName : Json → Text
  | null => "NoneType"
  | bool _ => "bool"
  | int _ => "int"
  | real _ => "float"
  | text _ => "str"
  | array _ => "list"
  | object _ => "dict"

/-- The member with the given name. -/
def member? (name : Text) : List (Text × Json) → Option Json
  | [] => none
  | (key, value) :: rest => if key = name then some value else member? name rest

/-- Set a member: a new one comes last, a known one keeps its place. -/
def setMember (name : Text) (value : Json) : List (Text × Json) → List (Text × Json)
  | [] => [(name, value)]
  | (key, old) :: rest =>
      if key = name then (key, value) :: rest else (key, old) :: setMember name value rest

/-- An exponent with its sign and at least two digits. -/
def exponentText (exponent : Int) : Text :=
  let digits := Text.ofNat exponent.natAbs
  .cat
    [if exponent < 0 then "e-" else "e+",
      if digits.length < 2 then '0' :: digits else digits]

/--
A positive finite number in its shortest digits: positional when the leading
digit stands between 10⁻⁴ and 10¹⁵, and with an exponent otherwise.
-/
def positiveText (bits : UInt64) : Text :=
  let (digits, leading) := (Decimal.shortest bits).normalDigits
  if leading < -4 ∨ 16 ≤ leading then
    let fraction := digits.drop 1
    .cat
      [digits.take 1, if fraction.isEmpty then [] else '.' :: fraction,
        exponentText leading]
  else if leading < 0 then
    .cat ["0.", List.replicate (leading.natAbs - 1) '0', digits]
  else
    let whole := leading.toNat + 1
    let fraction := digits.drop whole
    .cat
      [digits.take whole, List.replicate (whole - digits.length) '0', ".",
        if fraction.isEmpty then "0" else fraction]

/-- A real number written out. -/
def realText (value : Float) : Text :=
  let bits := value.toBits
  let sign : Text := if bits.toNat < Nat.pow 2 63 then [] else "-"
  let magnitude := bits.toNat % Nat.pow 2 63
  if magnitude > 0x7FF0000000000000 then "nan"
  else if magnitude = 0x7FF0000000000000 then .cat [sign, "inf"]
  else if magnitude = 0 then .cat [sign, "0.0"]
  else .cat [sign, positiveText magnitude.toUInt64]

mutual

/-- A value as it is written inside another one, with texts quoted. -/
def nested : Json → Text
  | null => "None"
  | bool true => "True"
  | bool false => "False"
  | int value => .ofInt value
  | real value => realText value
  | text value => Text.quote value
  | array items => .cat ["[", .joinWith ", " (nestedItems items), "]"]
  | object members => .cat ["\x7b", .joinWith ", " (nestedMembers members), "\x7d"]

/-- The items of an array, each written out. -/
def nestedItems : List Json → List Text
  | [] => []
  | item :: rest => nested item :: nestedItems rest

/-- The members of an object, each written with its name. -/
def nestedMembers : List (Text × Json) → List Text
  | [] => []
  | (name, value) :: rest =>
      .cat [Text.quote name, ": ", nested value] :: nestedMembers rest

end

/-- A value written out as text; a text stands for itself. -/
def display : Json → Text
  | text value => value
  | value => nested value

end Json

end TaggedUnion
