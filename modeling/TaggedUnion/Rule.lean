import TaggedUnion.Schema
import TaggedUnion.Diagnostic
import TaggedUnion.Settings

/-!
# Rules

A schema that reads well may still be questionable.  Each rule states one
condition on schemas; its violations are warnings, or errors when the rule is
enforced.
-/

namespace TaggedUnion

/-- What a rule asks of a schema. -/
inductive Condition where
  /-- The schema has a variant. -/
  | hasVariants
  /-- No two variants share a name. -/
  | distinctVariants
deriving DecidableEq, Repr

/-- A way in which a schema breaks a condition. -/
inductive Violation where
  | noVariants
  | repeatedVariant (name : Text) (count : Nat)
deriving DecidableEq, Repr

namespace Violation

/-- The violation in words, for a schema with the given name. -/
def message (schemaName : Text) : Violation → Text
  | noVariants => .cat [schemaName, " declares no variants"]
  | repeatedVariant name count =>
      .cat ["Variant ", name, " is declared ", .ofNat count, " times in ", schemaName]

end Violation

namespace Condition

/-- The names that occur more than once, in the order of their first occurrence. -/
def repeatedNames (names : List Text) : List Text :=
  names.eraseDups.filter fun name => 1 < names.count name

/-- How a schema breaks the condition. -/
def violations (condition : Condition) (schema : Schema) : List Violation :=
  match condition with
  | hasVariants => if schema.variants.isEmpty then [.noVariants] else []
  | distinctVariants =>
      (repeatedNames schema.variantNames).map fun name =>
        .repeatedVariant name (schema.variantNames.count name)

end Condition

/-- A condition, and whether breaking it keeps a document from having an artifact. -/
structure Rule where
  condition : Condition
  enforced : Bool := false
deriving DecidableEq, Repr

namespace Rule

/-- How grave a violation of the rule is. -/
def severity (rule : Rule) : Severity :=
  if rule.enforced then .error else .warning

/-- The remarks of one rule on a schema. -/
def check (schema : Schema) (rule : Rule) : List Diagnostic :=
  (rule.condition.violations schema).map fun violation =>
    { severity := rule.severity
      code := "SchemaValidationError"
      message := violation.message schema.name }

/-- The remarks of all rules on a schema, rule by rule. -/
def checkAll (rules : List Rule) (schema : Schema) : List Diagnostic :=
  rules.flatMap (check schema)

/-- The rules that the settings ask for. -/
def ofSettings (settings : Settings) : List Rule :=
  [⟨.hasVariants, settings.requireVariants.isOn⟩,
    ⟨.distinctVariants, settings.uniqueVariantNames.isOn⟩]

end Rule

end TaggedUnion
