import TaggedUnion.Artifact.Layout
import TaggedUnion.Text.Blank
import TaggedUnion.Text.Occurrence
import TaggedUnion.Text.Quoted

/-!
# Checking artifacts

Before an artifact is written it is held against its schema: the fixed region
is there, and without it the artifact declares the base class and exactly the
variants of the schema, and its braces are balanced.
-/

namespace TaggedUnion.Artifact

/-- How an artifact fails to fit the schema with the given name. -/
inductive Fault where
  | missingFixedRegion (name : Text)
  | missingBaseClass (name : Text)
  | wrongVariants (declared expected : List Text)
  | unbalanced (name : Text)
deriving DecidableEq, Repr

namespace Fault

/-- The fault in words. -/
def message : Fault → Text
  | missingFixedRegion name =>
      .cat ["Fixed area of ", name, " is missing from the artifact"]
  | missingBaseClass name =>
      .cat ["Artifact does not declare the abstract class ", name]
  | wrongVariants declared expected =>
      .cat
        ["Artifact declares variants ", Text.quoteList declared, ", expected ",
          Text.quoteList expected]
  | unbalanced name => .cat ["Artifact of ", name, " has unbalanced braces"]

end Fault

/-- The line that declares the base class, with the line feeds around it. -/
def baseClassDeclaration (name : Text) : Text :=
  .cat ["\npublic abstract class ", name, " \x7b\n"]

/--
Read the declaration of a variant of the named union from the start of a line
to the end of one: the variant's name, and the length of the declaration.
-/
def variantDeclaration? (unionName text : Text) : Option (Text × Nat) := do
  let rest ← Text.after? "  public sealed class " text
  let name := rest.takeWhile (!Text.isBlank ·)
  let tail ← Text.after? (.cat [" : ", unionName, " \x7b"]) (rest.drop name.length)
  if name.isEmpty then
    none
  else
    match tail with
    | [] | '\n' :: _ => some (name, text.length - tail.length)
    | _ => none

/--
The names of the variants that a text declares.  `skip` counts the characters
that belong to the declaration before, and `atStart` tells whether a line
starts here.
-/
def declaredFrom (unionName : Text) : (skip : Nat) → (atStart : Bool) → Text → List Text
  | _, _, [] => []
  | skip + 1, _, character :: rest =>
      declaredFrom unionName skip (character = '\n') rest
  | 0, atStart, character :: rest =>
      match if atStart then variantDeclaration? unionName (character :: rest) else none with
      | some (name, length) =>
          name :: declaredFrom unionName (length - 1) (character = '\n') rest
      | none => declaredFrom unionName 0 (character = '\n') rest

/-- The names of the variants of the named union that a text declares, in order. -/
def declaredVariants (unionName text : Text) : List Text :=
  declaredFrom unionName 0 true text

/-- Comment lines do not count as code. -/
def isCodeLine (line : Text) : Bool :=
  !Text.startsWith "//" (Text.trimStart line)

/-- By how much a line changes the depth of nesting. -/
def braceBalance (line : Text) : Int :=
  (line.count '{' : Int) - (line.count '}' : Int)

/-- Whether the lines return to the depth zero without ever going below it. -/
def balancedFrom (depth : Int) : List Text → Bool
  | [] => depth = 0
  | line :: rest =>
      let next := depth + braceBalance line
      0 ≤ next && balancedFrom next rest

/-- Whether the braces of a text's code lines are balanced. -/
def isBalanced (text : Text) : Bool :=
  balancedFrom 0 ((Text.lines text).filter isCodeLine)

/-- Hold an artifact without its fixed region against the schema. -/
def checkCode (schema : Schema) (code : Text) : Except Fault Unit :=
  let declared := declaredVariants schema.name code
  if !Text.hasPart (baseClassDeclaration schema.name) code then
    .error (.missingBaseClass schema.name)
  else if declared ≠ schema.variantNames then
    .error (.wrongVariants declared schema.variantNames)
  else if !isBalanced code then
    .error (.unbalanced schema.name)
  else
    .ok ()

/-- Hold an artifact against the schema. -/
def check (schema : Schema) (artifact : Text) : Except Fault Unit :=
  match Text.splitAt? (fixedRegion schema) artifact with
  | none => .error (.missingFixedRegion schema.name)
  | some (before, after) => checkCode schema (before ++ after)

end TaggedUnion.Artifact
