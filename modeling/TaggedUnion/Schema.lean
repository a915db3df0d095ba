import TaggedUnion.Text.Basic

/-!
# Schemas of tagged unions

A schema names a closed union, the fields that all of its variants share, the
lines to be copied into the base class as they are, and the variants in the
order of their declaration.
-/

namespace TaggedUnion

/-- A field with its declared type. -/
structure Field where
  type : Text
  name : Text
deriving DecidableEq, Repr

namespace Field

/-- The field as it is declared: its type, a space and its name. -/
def declaration (field : Field) : Text :=
  .cat [field.type, " ", field.name]

end Field

/-- One alternative of the union, with the fields of its own. -/
structure Variant where
  name : Text
  fields : List Field := []
deriving DecidableEq, Repr

/-- A tagged union. -/
structure Schema where
  name : Text := []
  /-- Handlers of a match may be left out. -/
  allowNulls : Bool := false
  /-- The base class lists its variants for serializers. -/
  knownTypes : Bool := false
  /-- Shared fields that every constructor demands. -/
  baseFields : List Field := []
  /-- Shared fields that every constructor can do without. -/
  defaultFields : List Field := []
  /-- Lines copied into the base class. -/
  fixedLines : List Text := []
  variants : List Variant := []
deriving DecidableEq, Repr

namespace Schema

/-- The fields of the base class: the demanded ones, then the optional ones. -/
def sharedFields (schema : Schema) : List Field :=
  schema.baseFields ++ schema.defaultFields

/-- The names of the variants in the order of their declaration. -/
def variantNames (schema : Schema) : List Text :=
  schema.variants.map (·.name)

end Schema

end TaggedUnion
