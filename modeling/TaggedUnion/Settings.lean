import TaggedUnion.Json.Basic

/-!
# Settings

The settings of a generator.  They hold the values that were given for them,
whatever their kind; each use of a setting says how it reads the value.

Four more names address the settings as a whole: their kind and their handle,
which cannot be given, their contents, which replace all settings at once, and
their listing, which replaces the list of the settings to show.
-/

namespace TaggedUnion

/-- What can be set, by JSON values. -/
structure Settings where
  /-- The ending of document names. -/
  schemaExtension : Json := .text ".adtValue"
  /-- The ending of artifact names. -/
  outputExtension : Json := .text ".cs"
  /-- A schema must have a variant. -/
  requireVariants : Json := .bool false
  /-- No two variants may share a name. -/
  uniqueVariantNames : Json := .bool false
  /-- An artifact starts with a remark on its origin. -/
  addGenerationComment : Json := .bool false
  /-- An artifact is checked against its schema before it is written. -/
  validateOutput : Json := .bool true
  /-- What stands in place of the list of the settings to show, if anything does. -/
  listing : Option Json := none

/-- Why values cannot be taken as settings, or settings cannot be shown. -/
inductive SettingsError where
  /-- Only an object holds settings. -/
  | notAnObject (given : Json)
  /-- The settings keep their kind. -/
  | kindGiven (given : Json)
  /-- Only an object can be the contents. -/
  | contentsNotAnObject (given : Json)
  /-- The settings keep their handle. -/
  | handleGiven
  /-- Only an object can be the listing. -/
  | listingNotAnObject (given : Json)
  /-- No JSON value is an entry of a listing. -/
  | listingEntry (given : Json)

namespace SettingsError

/-- The error in words. -/
def message : SettingsError → Text
  | notAnObject given =>
      .cat ["'", given.kindName, "' object has no attribute 'items'"]
  | kindGiven given =>
      .cat ["__class__ must be set to a class, not '", given.kindName, "' object"]
  | contentsNotAnObject given =>
      .cat ["__dict__ must be set to a dictionary, not a '", given.kindName, "'"]
  | handleGiven =>
      "attribute '__weakref__' of 'CodeGeneratorConfig' objects is not writable"
  | listingNotAnObject given =>
      .cat ["'", given.kindName, "' object has no attribute 'values'"]
  | listingEntry given =>
      .cat ["'", given.kindName, "' object has no attribute '_field_type'"]

end SettingsError

namespace Settings

/-- Give a setting or the listing a value; a name of neither changes nothing. -/
def put (settings : Settings) (name : Text) (value : Json) : Settings :=
  if name = "schema_extension".toList then { settings with schemaExtension := value }
  else if name = "output_extension".toList then { settings with outputExtension := value }
  else if name = "require_variants".toList then { settings with requireVariants := value }
  else if name = "unique_variant_names".toList then
    { settings with uniqueVariantNames := value }
  else if name = "add_generation_comment".toList then
    { settings with addGenerationComment := value }
  else if name = "validate_output".toList then { settings with validateOutput := value }
  else if name = "__dataclass_fields__".toList then { settings with listing := some value }
  else settings

/-- The defaults with the given contents in their place. -/
def ofContents (members : List (Text × Json)) : Settings :=
  members.foldl (fun settings (name, value) => settings.put name value) {}

/-- Give what a name stands for a value: a setting, or the settings as a whole. -/
def set (settings : Settings) (name : Text) (value : Json) : Except SettingsError Settings :=
  if name = "__class__".toList then
    .error (.kindGiven value)
  else if name = "__weakref__".toList then
    .error .handleGiven
  else if name = "__dict__".toList then
    match value with
    | .object members => .ok (ofContents members)
    | given => .error (.contentsNotAnObject given)
  else
    .ok (settings.put name value)

/-- The defaults with the members of an object set one after the other. -/
def ofJson : Json → Except SettingsError Settings
  | .object members =>
      members.foldlM (fun settings (name, value) => settings.set name value) {}
  | given => .error (.notAnObject given)

/-- The settings by their names. -/
def members (settings : Settings) : List (Text × Json) :=
  [("schema_extension", settings.schemaExtension),
    ("output_extension", settings.outputExtension),
    ("require_variants", settings.requireVariants),
    ("unique_variant_names", settings.uniqueVariantNames),
    ("add_generation_comment", settings.addGenerationComment),
    ("validate_output", settings.validateOutput)]

/-- The settings that are shown: all of them, unless a listing without entries hides them. -/
def shown (settings : Settings) : Except SettingsError (List (Text × Json)) :=
  match settings.listing with
  | none => .ok settings.members
  | some (.object []) => .ok []
  | some (.object ((_, entry) :: _)) => .error (.listingEntry entry)
  | some given => .error (.listingNotAnObject given)

end Settings

end TaggedUnion
