import TaggedUnion.Generator
import TaggedUnion.Proofs.Basic
import Mathlib.Data.List.Nodup

/-!
# What the rules find, and what follows from it

Each rule of a generator remarks on the ways in which a schema breaks its
condition.  The names of variants are counted for that: the names that occur more
than once are told in the order in which they first occur, each with the number of
its occurrences.

A schema has an artifact if and only if it breaks no enforced rule.  Otherwise the
first remark of an enforced rule gives the reason, and the schema is still told.
The main statement says this for the two rules that the settings ask for, in words
that do not mention rules at all.
-/

namespace TaggedUnion

/-! ## Names that occur more than once -/

namespace Condition

/--
The names that occur at least twice among others, each of them once, in the order in
which they first occur.
-/
structure AreRepeated (names repeated : List Text) : Prop where
  mem_iff : ∀ name, name ∈ repeated ↔ 2 ≤ names.count name
  ordered : repeated.Pairwise fun first second => names.idxOf first < names.idxOf second

theorem areRepeated_repeatedNames (names : List Text) :
    AreRepeated names (repeatedNames names) where
  mem_iff name := by
    rw [repeatedNames, List.mem_filter, List.mem_eraseDups, decide_eq_true_iff]
    refine ⟨fun ⟨_, often⟩ => often, fun often => ⟨?_, often⟩⟩
    exact List.count_pos_iff.mp (Nat.lt_of_lt_of_le Nat.zero_lt_two often)
  ordered := (pairwise_idxOf_eraseDups names).filter _

theorem AreRepeated.eq_nil_iff
    {names repeated : List Text}
    (areRepeated : AreRepeated names repeated) :
    repeated = [] ↔ names.Nodup := by
  rw [List.eq_nil_iff_forall_not_mem, List.nodup_iff_count_le_one]
  refine forall_congr' fun name => ?_
  rw [areRepeated.mem_iff]
  omega

theorem violations_hasVariants_eq_nil_iff (schema : Schema) :
    hasVariants.violations schema = [] ↔ schema.variants ≠ [] := by
  rw [violations]
  split <;> simp_all

theorem violations_distinctVariants_eq_nil_iff (schema : Schema) :
    distinctVariants.violations schema = [] ↔ schema.variantNames.Nodup := by
  rw [violations, List.map_eq_nil_iff]
  exact (areRepeated_repeatedNames _).eq_nil_iff

end Condition

/-! ## Remarks of rules -/

namespace Rule

/-- The remark on a violation in the given words. -/
def finding (enforced : Bool) (message : Text) : Diagnostic where
  severity := if enforced then .error else .warning
  code := "SchemaValidationError"
  message

theorem isError_finding (enforced : Bool) (message : Text) :
    (finding enforced message).isError = enforced := by
  cases enforced <;> rfl

theorem check_eq_map (schema : Schema) (rule : Rule) :
    check schema rule =
      (rule.condition.violations schema).map fun violation =>
        finding rule.enforced (violation.message schema.name) :=
  rfl

theorem isError_of_mem_check
    {schema : Schema}
    {rule : Rule}
    {remark : Diagnostic}
    (member : remark ∈ check schema rule) :
    remark.isError = rule.enforced := by
  rw [check_eq_map] at member
  obtain ⟨violation, -, rfl⟩ := List.mem_map.mp member
  exact isError_finding _ _

/-- No remark is an error if and only if the schema breaks no enforced rule. -/
theorem find?_checkAll_eq_none_iff (rules : List Rule) (schema : Schema) :
    (checkAll rules schema).find? (·.isError) = none ↔
      ∀ rule ∈ rules, rule.enforced = true → rule.condition.violations schema = [] := by
  simp only [List.find?_eq_none, checkAll, List.mem_flatMap, forall_exists_index, and_imp]
  constructor
  · intro noErrors rule inRules enforced
    by_contra broken
    obtain ⟨violation, inViolations⟩ := List.exists_mem_of_ne_nil _ broken
    have remarked : finding rule.enforced (violation.message schema.name) ∈ check schema rule :=
      List.mem_map_of_mem inViolations
    exact noErrors _ rule inRules remarked ((isError_of_mem_check remarked).trans enforced)
  · intro kept remark rule inRules member isError
    rw [isError_of_mem_check member] at isError
    rw [check_eq_map, kept rule inRules isError] at member
    cases member

/--
What the rules of settings remark on a schema in which the given names are repeated:
that there is no variant, and then of each repeated name how often it occurs.
-/
def findings (settings : Settings) (schema : Schema) (repeated : List Text) : List Diagnostic :=
  (if schema.variants = [] then
    [finding settings.requireVariants.isOn (.cat [schema.name, " declares no variants"])]
  else
    []) ++
  repeated.map fun name =>
    finding settings.uniqueVariantNames.isOn
      (.cat
        ["Variant ", name, " is declared ", .ofNat (schema.variantNames.count name),
          " times in ", schema.name])

theorem checkAll_ofSettings (settings : Settings) (schema : Schema) :
    checkAll (ofSettings settings) schema =
      findings settings schema (Condition.repeatedNames schema.variantNames) := by
  have counted :
      check schema ⟨.distinctVariants, settings.uniqueVariantNames.isOn⟩ =
        (Condition.repeatedNames schema.variantNames).map fun name =>
          finding settings.uniqueVariantNames.isOn
            (Violation.message schema.name
              (.repeatedVariant name (schema.variantNames.count name))) := by
    rw [check_eq_map, Condition.violations, List.map_map]
    rfl
  have told :
      check schema ⟨.hasVariants, settings.requireVariants.isOn⟩ =
        if schema.variants = [] then
          [finding settings.requireVariants.isOn (Violation.message schema.name .noVariants)]
        else
          [] := by
    rw [check_eq_map, Condition.violations]
    cases schema.variants <;> rfl
  rw [checkAll, ofSettings, List.flatMap_cons, List.flatMap_cons, List.flatMap_nil,
    List.append_nil, told, counted]
  rfl

/-- When a schema breaks none of the rules that settings enforce. -/
theorem find?_ofSettings_eq_none_iff (settings : Settings) (schema : Schema) :
    (checkAll (ofSettings settings) schema).find? (·.isError) = none ↔
      (settings.requireVariants.isOn = false ∨ schema.variants ≠ []) ∧
        (settings.uniqueVariantNames.isOn = false ∨ schema.variantNames.Nodup) := by
  have off_or (switch : Bool) (kept : Prop) : (switch = true → kept) ↔ switch = false ∨ kept := by
    cases switch <;> simp
  simp only [find?_checkAll_eq_none_iff, ofSettings, List.forall_mem_cons, List.not_mem_nil,
    false_imp_iff, implies_true, and_true, Condition.violations_hasVariants_eq_nil_iff,
    Condition.violations_distinctVariants_eq_nil_iff, off_or]

end Rule

/-! ## What a generator makes of a schema -/

namespace Generator

variable (generator : Generator) {source : Option Text} {schema : Schema}
  {earlier : List Diagnostic}

/-- A schema that breaks an enforced rule has no artifact. -/
theorem ofReading_of_error
    {first : Diagnostic}
    (found : (Rule.checkAll generator.rules schema).find? (·.isError) = some first) :
    generator.ofReading source (.completed schema earlier) =
      .ok (.invalid schema (earlier ++ Rule.checkAll generator.rules schema) first.message) := by
  simp only [ofReading, found]

/-- Any other schema has one, if there is a name for it. -/
theorem ofReading_of_noError
    (found : (Rule.checkAll generator.rules schema).find? (·.isError) = none) :
    generator.ofReading source (.completed schema earlier) =
      (outputName generator.settings schema).map
        (.produced schema (earlier ++ Rule.checkAll generator.rules schema)
          (render generator.settings source schema)) := by
  simp only [ofReading, found]
  cases outputName generator.settings schema <;> rfl

theorem ofReading_of_text
    {extension : Text}
    (textual : generator.settings.outputExtension = .text extension)
    (found : (Rule.checkAll generator.rules schema).find? (·.isError) = none) :
    generator.ofReading source (.completed schema earlier) =
      .ok
        (.produced schema (earlier ++ Rule.checkAll generator.rules schema)
          (render generator.settings source schema) (schema.name ++ extension)) := by
  rw [ofReading_of_noError generator found, outputName, textual]
  rfl

theorem ofLines_of_text
    {extension : Text}
    (textual : generator.settings.outputExtension = .text extension)
    (source : Option Text)
    {lines : List Text}
    (completed : Reading.ofLines lines = .completed schema earlier)
    (found : (Rule.checkAll generator.rules schema).find? (·.isError) = none) :
    generator.ofLines source lines =
      .ok
        (.produced schema (earlier ++ Rule.checkAll generator.rules schema)
          (render generator.settings source schema) (schema.name ++ extension)) := by
  rw [ofLines, completed, ofReading_of_text generator textual found]

/-- What a generator can answer to a document that was read to its end. -/
theorem ofReading_completed_cases
    {generator : Generator}
    {generation : Generation}
    (generated : generator.ofReading source (.completed schema earlier) = .ok generation) :
    let remarks := Rule.checkAll generator.rules schema
    (∃ first,
        remarks.find? (·.isError) = some first ∧
          generation = .invalid schema (earlier ++ remarks) first.message) ∨
      ∃ name,
        remarks.find? (·.isError) = none ∧
          outputName generator.settings schema = .ok name ∧
          generation =
            .produced schema (earlier ++ remarks) (render generator.settings source schema)
              name := by
  intro remarks
  cases found : remarks.find? (·.isError) with
  | some first =>
      rw [ofReading_of_error generator found] at generated
      cases generated
      exact Or.inl ⟨first, rfl, rfl⟩
  | none =>
      rw [ofReading_of_noError generator found] at generated
      cases named : outputName generator.settings schema with
      | error error =>
          rw [named] at generated
          cases generated
      | ok name =>
          rw [named] at generated
          cases generated
          exact Or.inr ⟨name, rfl, rfl, rfl⟩

/-- An artifact is laid out from the schema of a document that was read to its end. -/
theorem completed_of_produced
    {generator : Generator}
    {lines : List Text}
    {diagnostics : List Diagnostic}
    {artifact name : Text}
    (generated :
      generator.ofLines source lines = .ok (.produced schema diagnostics artifact name)) :
    ∃ earlier,
      Reading.ofLines lines = .completed schema earlier ∧
        (Rule.checkAll generator.rules schema).find? (·.isError) = none ∧
        artifact = render generator.settings source schema := by
  rw [ofLines] at generated
  generalize Reading.ofLines lines = reading at generated ⊢
  cases reading with
  | aborted earlier rejection => cases generated
  | completed complete earlier =>
      rcases ofReading_completed_cases generated with ⟨first, -, told⟩ | ⟨name, found, -, told⟩
      · cases told
      · cases told
        exact ⟨earlier, rfl, found, rfl⟩

/-- A generator that names artifacts with a text answers to every document. -/
theorem exists_generation
    {extension : Text}
    (textual : generator.settings.outputExtension = .text extension)
    (source : Option Text)
    (lines : List Text) :
    ∃ generation, generator.ofLines source lines = .ok generation := by
  rw [ofLines]
  cases Reading.ofLines lines with
  | aborted earlier rejection => exact ⟨_, rfl⟩
  | completed schema earlier =>
      cases found : (Rule.checkAll generator.rules schema).find? (·.isError) with
      | some first => exact ⟨_, ofReading_of_error generator found⟩
      | none => exact ⟨_, ofReading_of_text generator textual found⟩

/--
With the rules that settings ask for, a document has an artifact if and only if it can
be read, has a variant where one is required, and repeats no variant's name where
names must be unique.  Whatever is required, a schema without variants and every name
that is repeated is remarked on; the first remark that is an error is the reason for
having no artifact, and the schema is told all the same.
-/
theorem ofLines_make_settings
    (settings : Settings)
    {extension : Text}
    (textual : settings.outputExtension = .text extension)
    (source : Option Text)
    (lines : List Text) :
    ∃ generation,
      (make settings none).ofLines source lines = .ok generation ∧
        (generation.artifact?.isSome = true ↔
          ∃ schema earlier,
            Reading.ofLines lines = .completed schema earlier ∧
              (settings.requireVariants.isOn = false ∨ schema.variants ≠ []) ∧
              (settings.uniqueVariantNames.isOn = false ∨ schema.variantNames.Nodup)) ∧
        ∀ schema earlier,
          Reading.ofLines lines = .completed schema earlier →
            generation.schema? = some schema ∧
              ∃ repeated,
                Condition.AreRepeated schema.variantNames repeated ∧
                  generation.diagnostics = earlier ++ Rule.findings settings schema repeated ∧
                  (generation.artifact? = none →
                    ∃ before first after,
                      Rule.findings settings schema repeated = before ++ first :: after ∧
                        (∀ remark ∈ before, remark.isError = false) ∧
                        first.isError = true ∧
                        generation.reason? = some first.message) := by
  rw [ofLines]
  cases Reading.ofLines lines with
  | aborted earlier rejection =>
      refine ⟨.unreadable earlier rejection, rfl, ?_, nofun⟩
      simp [Generation.artifact?]
  | completed schema earlier =>
      have areRepeated := Condition.areRepeated_repeatedNames schema.variantNames
      have remarks := Rule.checkAll_ofSettings settings schema
      have accepted_iff := Rule.find?_ofSettings_eq_none_iff settings schema
      cases found : (Rule.checkAll (Rule.ofSettings settings) schema).find? (·.isError) with
      | some first =>
          refine ⟨_, ofReading_of_error (make settings none) found, ?_, ?_⟩
          · simpa [Generation.artifact?, found] using accepted_iff
          · intro other told same
            cases same
            refine ⟨rfl, _, areRepeated, congrArg (earlier ++ ·) remarks, fun _ => ?_⟩
            rw [remarks] at found
            obtain ⟨isError, before, after, cut, noErrors⟩ :=
              List.find?_eq_some_iff_append.mp found
            exact ⟨before, first, after, cut, by simpa using noErrors, isError, rfl⟩
      | none =>
          refine ⟨_, ofReading_of_text (make settings none) textual found, ?_, ?_⟩
          · simpa [Generation.artifact?, found] using accepted_iff
          · intro other told same
            cases same
            exact ⟨rfl, _, areRepeated, congrArg (earlier ++ ·) remarks, nofun⟩

/-- A document that declares two variants several times, in turns. -/
def repeatingLines : List Text :=
  ["A \x7b", "V \x7b", "\x7d", "W \x7b", "\x7d", "V \x7b", "\x7d", "W \x7b", "\x7d",
    "V \x7b", "\x7d", "\x7d"]

/-- The schema of that document. -/
def repeatingSchema : Schema where
  name := "A"
  variants := [⟨"V", []⟩, ⟨"W", []⟩, ⟨"V", []⟩, ⟨"W", []⟩, ⟨"V", []⟩]

/-- Settings that require variants and forbid repetitions, by values that are no switches. -/
def demandingSettings : Settings where
  requireVariants := .int 1
  uniqueVariantNames := .text "yes"

/-- The name that is repeated first is the reason, though another is repeated in between. -/
theorem ofLines_repeatingLines :
    demandingSettings.outputExtension = .text ".cs" ∧
      ∃ generation earlier repeated,
        (make demandingSettings none).ofLines none repeatingLines = .ok generation ∧
          Reading.ofLines repeatingLines = .completed repeatingSchema earlier ∧
          generation.artifact? = none ∧
          Condition.AreRepeated repeatingSchema.variantNames repeated ∧
          generation.diagnostics =
            earlier ++ Rule.findings demandingSettings repeatingSchema repeated ∧
          generation.reason? = some "Variant V is declared 3 times in A" := by
  have completed :
      Reading.ofLines repeatingLines =
        .completed repeatingSchema (Reading.ofLines repeatingLines).diagnostics := by
    decide +kernel
  have answered :
      ((make demandingSettings none).ofLines none repeatingLines).toOption.map
          (fun generation => (generation.artifact?, generation.reason?)) =
        some (none, some "Variant V is declared 3 times in A".toList) := by
    decide +kernel
  obtain ⟨generation, generated, -, judged⟩ :=
    ofLines_make_settings demandingSettings rfl none repeatingLines
  obtain ⟨-, repeated, areRepeated, remarks, -⟩ := judged _ _ completed
  rw [generated] at answered
  obtain ⟨noArtifact, reason⟩ := Prod.mk.inj (Option.some.inj answered)
  exact ⟨rfl, generation, _, repeated, generated, completed, noArtifact, areRepeated, remarks,
    reason⟩

end Generator

end TaggedUnion
