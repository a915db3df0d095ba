import TaggedUnion.Schema
import TaggedUnion.Text.Lines

/-!
# Layout of artifacts

The artifact of a schema is a C# source file: an abstract base class that only
the classes nested in it can extend, one sealed class for each variant, and
two match methods that pick a handler by the variant at hand.  An artifact is
laid out as a list of lines, each of which ends with a line feed in the file.
-/

namespace TaggedUnion.Artifact

/-- The remark on the origin of an artifact. -/
def generationComment (source : Option Text) : Text :=
  let source := source.getD []
  .cat
    ["// Generated by adt_remodel 1.0.0",
      if source.isEmpty then [] else .cat [" from ", source],
      ". Do not edit."]

/-- The lines before the base class, after a remark if there is one. -/
def headingLines (remark : Option Text) : List Text :=
  Text.stack
    [remark.toList, ["using System;", "using System.Runtime.Serialization;", ""]]

/-- The lines that introduce the fixed lines, hold them and end them. -/
def fixedRegionLines (schema : Schema) : List Text :=
  if schema.fixedLines.isEmpty then
    []
  else
    Text.stack
      [["  //fixed area"], schema.fixedLines.map (.cat ["  ", ·]), ["  //end fixed area"]]

/-- The part of an artifact that holds the fixed lines. -/
def fixedRegion (schema : Schema) : Text :=
  Text.unlines (fixedRegionLines schema)

/-- The attributes that list the variants for serializers. -/
def knownTypeLines (schema : Schema) : List Text :=
  if schema.knownTypes then
    schema.variantNames.map fun name => .cat ["[KnownType(typeof(", name, "))]"]
  else
    []

/-- The declaration of the base class up to its fields. -/
def baseClassLines (schema : Schema) : List Text :=
  ["[Serializable]",
    .cat ["public abstract class ", schema.name, " \x7b"],
    .cat ["  private ", schema.name, "() \x7b \x7d"],
    "",
    "  public override string ToString() => this.PrettyPrint();",
    ""]

/-- The fields that all variants share. -/
def sharedFieldLines (schema : Schema) : List Text :=
  Text.stack
    [schema.sharedFields.map fun field => .cat ["  public ", field.declaration, ";"], [""]]

/-- The fixed region and the empty line after it. -/
def fixedLines (schema : Schema) : List Text :=
  if schema.fixedLines.isEmpty then [] else Text.stack [fixedRegionLines schema, [""]]

/-- The expression for the value that a field has when it is left out. -/
def defaultValue (type : Text) : Text :=
  .cat ["default(", type, ")"]

/--
The parameters of a variant's constructor: the demanded shared fields, the
variant's own fields, and the optional shared fields with their defaults.
-/
def parameters (schema : Schema) (variant : Variant) : List Text :=
  (schema.baseFields ++ variant.fields).map (·.declaration) ++
    schema.defaultFields.map fun field =>
      .cat [field.declaration, " = ", defaultValue field.type]

/-- The fields that a variant's constructor sets, in the order of its parameters. -/
def assignedFields (schema : Schema) (variant : Variant) : List Field :=
  schema.baseFields ++ variant.fields ++ schema.defaultFields

/-- The lines that open the sealed class of a variant. -/
def variantHeaderLines (schema : Schema) (variant : Variant) : List Text :=
  ["  [Serializable]",
    .cat ["  public sealed class ", variant.name, " : ", schema.name, " \x7b"]]

/-- The line that opens the constructor of a variant. -/
def constructorLine (schema : Schema) (variant : Variant) : Text :=
  .cat
    ["    public ", variant.name, "(", .joinWith ", " (parameters schema variant), ") \x7b"]

/-- The sealed class of a variant. -/
def variantLines (schema : Schema) (variant : Variant) : List Text :=
  Text.stack
    [variantHeaderLines schema variant,
      variant.fields.map fun field => .cat ["    public ", field.declaration, ";"],
      [constructorLine schema variant],
      (assignedFields schema variant).map fun field =>
        .cat ["      this.", field.name, " = ", field.name, ";"],
      ["    \x7d", "  \x7d", ""]]

/-- The two match methods. -/
inductive Match where
  /-- The method whose handlers give a result. -/
  | result
  /-- The method whose handlers only act. -/
  | action
deriving DecidableEq, Repr

namespace Match

/-- The line that opens the method. -/
def headerLine : Match → Text
  | result => "  public T Match<T>("
  | action => "  public void Match("

/-- The type of the handler for a variant. -/
def delegate (method : Match) (name : Text) : Text :=
  match method with
  | result => .cat ["Func<", name, ", T>"]
  | action => .cat ["Action<", name, ">"]

/-- The parameter that takes the handler for a variant. -/
def handler (method : Match) (allowNulls : Bool) (name : Text) : Text :=
  .cat ["      ", method.delegate name, " ", name, if allowNulls then " = null" else []]

/-- A comma after every line but the last. -/
def withCommas : List Text → List Text
  | [] => []
  | [line] => [line]
  | line :: rest => .cat [line, ","] :: withCommas rest

/-- The variable that holds the variant in the branch with the given index. -/
def binding (index : Nat) : Text :=
  's' :: Text.ofNat index

/-- The line that tests for a variant. -/
def testLine (name : Text) (index : Nat) : Text :=
  .cat
    ["    ", if index = 0 then "if" else "\x7d else if", " (this is ", name, " ",
      binding index, ") \x7b"]

/-- The line that calls the handler for a variant. -/
def callLine (method : Match) (name : Text) (index : Nat) : Text :=
  match method with
  | result =>
      .cat ["      return ", name, " != null ? ", name, "(", binding index, ") : default(T);"]
  | action => .cat ["      if (", name, " != null) ", name, "(", binding index, ");"]

/-- The chain of tests, each with its call, and the line that ends it. -/
def chainLines (method : Match) (names : List Text) : List Text :=
  Text.stack
    [names.zipIdx.flatMap fun (name, index) =>
        [testLine name index, method.callLine name index],
      if names.isEmpty then [] else ["    \x7d"]]

/-- What the method does when no branch applies, and the lines that end it. -/
def footerLines : Match → List Text
  | result => ["    return default(T);", "  \x7d", ""]
  | action => ["  \x7d"]

/-- The whole method. -/
def lines (method : Match) (schema : Schema) : List Text :=
  Text.stack
    [[method.headerLine],
      withCommas (schema.variantNames.map (method.handler schema.allowNulls)),
      ["  ) \x7b"],
      method.chainLines schema.variantNames,
      method.footerLines]

end Match

/-- The lines of the artifact, after a remark if there is one. -/
def lines (remark : Option Text) (schema : Schema) : List Text :=
  Text.stack
    [headingLines remark,
      knownTypeLines schema,
      baseClassLines schema,
      sharedFieldLines schema,
      fixedLines schema,
      schema.variants.flatMap (variantLines schema),
      Match.lines .result schema,
      Match.lines .action schema,
      ["\x7d"]]

/-- The artifact of a schema, after a remark if there is one. -/
def render (remark : Option Text) (schema : Schema) : Text :=
  Text.unlines (lines remark schema)

end TaggedUnion.Artifact
