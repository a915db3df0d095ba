import TaggedUnion.Proofs.Generation.Judgement
import Mathlib.Data.List.Forall2

/-!
# Enforcing rules

A rule that is enforced finds what it found before, and finds it graver.  So
enforcing more rules never lets a document pass that failed before: the remarks
stay what they are but for their severity, an artifact that is still laid out is the
same, and one that is lost is lost to a rule that is newly enforced.

Two runs of a generator on one document are compared here, rule by rule, for rules in
any order and with any repetitions.
-/

namespace TaggedUnion

/-- The second remark differs from the first at most by being graver. -/
structure Diagnostic.IsMilder (mild grave : Diagnostic) : Prop where
  same : grave = { mild with severity := grave.severity }
  rank_le : mild.severity.rank ≤ grave.severity.rank

theorem Diagnostic.forall₂_isMilder_refl (remarks : List Diagnostic) :
    List.Forall₂ IsMilder remarks remarks :=
  List.forall₂_same.mpr fun _ _ => ⟨rfl, Nat.le_refl _⟩

namespace Rule

/-- The second rule has the condition of the first and is enforced if the first one is. -/
structure IsLaxer (lax strict : Rule) : Prop where
  condition : strict.condition = lax.condition
  enforced : lax.enforced = true → strict.enforced = true

/-- The schema breaks a rule that only the stricter rules enforce. -/
def NewlyBroken (lax strict : List Rule) (schema : Schema) : Prop :=
  ∃ pair ∈ lax.zip strict,
    pair.1.enforced = false ∧ pair.2.enforced = true ∧ pair.1.condition.violations schema ≠ []

/-! ## One rule and its remarks -/

namespace IsLaxer

variable {lax strict : Rule}

theorem isMilder_finding (laxer : lax.IsLaxer strict) (message : Text) :
    (finding lax.enforced message).IsMilder (finding strict.enforced message) := by
  refine ⟨rfl, ?_⟩
  cases enforced : lax.enforced with
  | true => simp [laxer.enforced enforced]
  | false => cases strict.enforced <;> simp [finding, Severity.rank]

theorem check (laxer : lax.IsLaxer strict) (schema : Schema) :
    List.Forall₂ Diagnostic.IsMilder (check schema lax) (Rule.check schema strict) := by
  rw [check_eq_map, check_eq_map, laxer.condition, List.forall₂_map_left_iff,
    List.forall₂_map_right_iff, List.forall₂_same]
  intro violation _
  exact laxer.isMilder_finding _

/-- A rule that becomes stricter is kept as before, unless it is newly enforced and broken. -/
theorem kept_iff (laxer : lax.IsLaxer strict) (schema : Schema) :
    (strict.enforced = true → strict.condition.violations schema = []) ↔
      (lax.enforced = true → lax.condition.violations schema = []) ∧
        ¬ (lax.enforced = false ∧ strict.enforced = true ∧
          lax.condition.violations schema ≠ []) := by
  rw [laxer.condition]
  cases enforced : lax.enforced with
  | true => simp [laxer.enforced enforced]
  | false => simp

end IsLaxer

/-! ## All rules and their remarks -/

variable {lax strict : List Rule}

theorem checkAll_isMilder
    (laxer : List.Forall₂ IsLaxer lax strict)
    (schema : Schema) :
    List.Forall₂ Diagnostic.IsMilder (checkAll lax schema) (checkAll strict schema) := by
  induction laxer with
  | nil => exact .nil
  | cons first _ ih =>
      rw [checkAll, List.flatMap_cons, checkAll, List.flatMap_cons]
      exact List.rel_append (first.check schema) ih

/--
Stricter rules find no error if and only if the others find none and no rule that is
newly enforced is broken.
-/
theorem find?_eq_none_iff_of_isLaxer
    (laxer : List.Forall₂ IsLaxer lax strict)
    (schema : Schema) :
    (checkAll strict schema).find? (·.isError) = none ↔
      (checkAll lax schema).find? (·.isError) = none ∧ ¬ NewlyBroken lax strict schema := by
  rw [find?_checkAll_eq_none_iff, find?_checkAll_eq_none_iff, NewlyBroken]
  induction laxer with
  | nil => simp
  | cons first _ ih =>
      rw [List.forall_mem_cons, List.forall_mem_cons, first.kept_iff, ih, List.zip_cons_cons,
        List.exists_mem_cons_iff, not_or, and_and_and_comm]

end Rule

/-! ## Two runs on one document -/

/--
How the answers to a document compare when the second comes from stricter rules.  There
may be no answer, but only where artifacts have no names.
-/
structure OnlyRejects
    (reading : Reading)
    (newlyBroken : Schema → Prop)
    (first second : Except GeneratorError Generation) :
    Prop where
  /-- The remarks are the same, and none of them becomes milder. -/
  diagnostics : ∀ mild grave, first = .ok mild → second = .ok grave →
    List.Forall₂ Diagnostic.IsMilder mild.diagnostics grave.diagnostics
  /-- What passes the stricter rules passes the others, to the same effect. -/
  accepted : ∀ grave, second = .ok grave → grave.artifact?.isSome = true →
    ∃ mild, first = .ok mild ∧ mild.schema? = grave.schema? ∧
      mild.artifact? = grave.artifact? ∧ mild.outputName? = grave.outputName?
  /-- What fails, fails under stricter rules, and if it cannot be read for the same reason. -/
  rejected : ∀ mild, first = .ok mild → mild.artifact? = none →
    ∃ grave, second = .ok grave ∧ grave.artifact? = none ∧
      (reading.schema? = none → grave.reason? = mild.reason?)
  /-- What passed before, fails if and only if it breaks a newly enforced rule. -/
  newlyRejected : ∀ mild schema, first = .ok mild → mild.artifact?.isSome = true →
    mild.schema? = some schema →
      ((∃ grave, second = .ok grave ∧ grave.artifact? = none) ↔ newlyBroken schema)
  /-- What has no answer under stricter rules has none under the others. -/
  unanswered : ∀ error, second = .error error → first = .error error

namespace OnlyRejects

variable {newlyBroken : Schema → Prop} {schema : Schema}
  {earlier mildRemarks graveRemarks : List Diagnostic}

/-- What cannot be read is answered in the same way whatever the rules are. -/
theorem of_aborted (earlier : List Diagnostic) (rejection : Rejection) :
    OnlyRejects (.aborted earlier rejection) newlyBroken
      (.ok (.unreadable earlier rejection)) (.ok (.unreadable earlier rejection)) where
  diagnostics := by
    rintro _ _ ⟨⟩ ⟨⟩
    exact Diagnostic.forall₂_isMilder_refl _
  accepted := by rintro _ ⟨⟩ ⟨⟩
  rejected := by
    rintro _ ⟨⟩ -
    exact ⟨_, rfl, rfl, fun _ => rfl⟩
  newlyRejected := by rintro _ _ ⟨⟩ ⟨⟩
  unanswered := nofun

/-- What failed before fails still, and the reason may be another. -/
theorem of_invalid
    (remarks : List.Forall₂ Diagnostic.IsMilder mildRemarks graveRemarks)
    (before after : Text) :
    OnlyRejects (.completed schema earlier) newlyBroken
      (.ok (.invalid schema mildRemarks before)) (.ok (.invalid schema graveRemarks after)) where
  diagnostics := by
    rintro _ _ ⟨⟩ ⟨⟩
    exact remarks
  accepted := by rintro _ ⟨⟩ ⟨⟩
  rejected := by
    rintro _ ⟨⟩ -
    exact ⟨_, rfl, rfl, nofun⟩
  newlyRejected := by rintro _ _ ⟨⟩ ⟨⟩
  unanswered := nofun

/-- What passed before and breaks a newly enforced rule fails. -/
theorem of_broken
    (remarks : List.Forall₂ Diagnostic.IsMilder mildRemarks graveRemarks)
    (broken : newlyBroken schema)
    (named : Except GeneratorError Text)
    (artifact reason : Text) :
    OnlyRejects (.completed schema earlier) newlyBroken
      (named.map (.produced schema mildRemarks artifact))
      (.ok (.invalid schema graveRemarks reason)) := by
  cases named with
  | error error =>
      exact ⟨nofun, by rintro _ ⟨⟩ ⟨⟩, nofun, nofun, nofun⟩
  | ok name =>
      constructor
      case diagnostics =>
        rintro _ _ ⟨⟩ ⟨⟩
        exact remarks
      case accepted => rintro _ ⟨⟩ ⟨⟩
      case rejected => rintro _ ⟨⟩ ⟨⟩
      case newlyRejected =>
        rintro _ _ ⟨⟩ - ⟨⟩
        exact ⟨fun _ => broken, fun _ => ⟨_, rfl, rfl⟩⟩
      case unanswered => nofun

/-- What passed before and breaks no newly enforced rule passes to the same effect. -/
theorem of_kept
    (remarks : List.Forall₂ Diagnostic.IsMilder mildRemarks graveRemarks)
    (kept : ¬ newlyBroken schema)
    (named : Except GeneratorError Text)
    (artifact : Text) :
    OnlyRejects (.completed schema earlier) newlyBroken
      (named.map (.produced schema mildRemarks artifact))
      (named.map (.produced schema graveRemarks artifact)) := by
  cases named with
  | error error =>
      exact ⟨nofun, nofun, nofun, nofun, fun _ same => same⟩
  | ok name =>
      constructor
      case diagnostics =>
        rintro _ _ ⟨⟩ ⟨⟩
        exact remarks
      case accepted =>
        rintro _ ⟨⟩ -
        exact ⟨_, rfl, rfl, rfl, rfl⟩
      case rejected => rintro _ ⟨⟩ ⟨⟩
      case newlyRejected =>
        rintro _ _ ⟨⟩ - ⟨⟩
        refine ⟨?_, fun broken => (kept broken).elim⟩
        rintro ⟨_, ⟨⟩, ⟨⟩⟩
      case unanswered => nofun

end OnlyRejects

namespace Generator

variable {lax strict : List Rule}

theorem onlyRejects_ofReading
    (settings : Settings)
    (laxer : List.Forall₂ Rule.IsLaxer lax strict)
    (source : Option Text)
    (reading : Reading) :
    OnlyRejects reading (Rule.NewlyBroken lax strict)
      ((Generator.mk settings lax).ofReading source reading)
      ((Generator.mk settings strict).ofReading source reading) := by
  cases reading with
  | aborted earlier rejection => exact .of_aborted earlier rejection
  | completed schema earlier =>
      have remarks := List.rel_append (Diagnostic.forall₂_isMilder_refl earlier)
        (Rule.checkAll_isMilder laxer schema)
      have noErrors_iff := Rule.find?_eq_none_iff_of_isLaxer laxer schema
      cases after : (Rule.checkAll strict schema).find? (·.isError) with
      | none =>
          obtain ⟨before, kept⟩ := noErrors_iff.mp after
          rw [ofReading_of_noError ⟨settings, lax⟩ before,
            ofReading_of_noError ⟨settings, strict⟩ after]
          exact .of_kept remarks kept _ _
      | some first =>
          rw [ofReading_of_error ⟨settings, strict⟩ after]
          cases before : (Rule.checkAll lax schema).find? (·.isError) with
          | none =>
              rw [ofReading_of_noError ⟨settings, lax⟩ before]
              refine .of_broken remarks ?_ _ _ _
              by_contra kept
              rw [noErrors_iff.mpr ⟨before, kept⟩] at after
              cases after
          | some other =>
              rw [ofReading_of_error ⟨settings, lax⟩ before]
              exact .of_invalid remarks _ _

/--
Turning rules into enforced ones only rejects.  The remarks stay the same and become
graver at most, what still passes is the same as before, what failed fails, and what
fails newly breaks a newly enforced rule.  Both runs have an answer if artifacts are
named with a text.
-/
theorem ofLines_onlyRejects
    (settings : Settings)
    (laxer : List.Forall₂ Rule.IsLaxer lax strict)
    (source : Option Text)
    (lines : List Text) :
    OnlyRejects (Reading.ofLines lines) (Rule.NewlyBroken lax strict)
        ((Generator.mk settings lax).ofLines source lines)
        ((Generator.mk settings strict).ofLines source lines) ∧
      ∀ extension, settings.outputExtension = .text extension →
        ∃ mild grave,
          (Generator.mk settings lax).ofLines source lines = .ok mild ∧
            (Generator.mk settings strict).ofLines source lines = .ok grave := by
  refine ⟨onlyRejects_ofReading settings laxer source _, fun extension textual => ?_⟩
  obtain ⟨mild, first⟩ := exists_generation ⟨settings, lax⟩ textual source lines
  obtain ⟨grave, second⟩ := exists_generation ⟨settings, strict⟩ textual source lines
  exact ⟨mild, grave, first, second⟩

/-- Rules that ask for variants twice and forbid repetitions in between. -/
def laxRules : List Rule :=
  [⟨.hasVariants, false⟩, ⟨.distinctVariants, true⟩, ⟨.hasVariants, false⟩]

/-- The same rules, the last of which is enforced. -/
def strictRules : List Rule :=
  [⟨.hasVariants, false⟩, ⟨.distinctVariants, true⟩, ⟨.hasVariants, true⟩]

/-- A document without variants passes until one of the rules that ask for them is enforced. -/
theorem ofLines_strictRules :
    List.Forall₂ Rule.IsLaxer laxRules strictRules ∧
      (∃ mild,
        (Generator.mk {} laxRules).ofLines none ["A \x7b", "\x7d"] = .ok mild ∧
          mild.artifact?.isSome = true) ∧
      ∃ grave,
        (Generator.mk {} strictRules).ofLines none ["A \x7b", "\x7d"] = .ok grave ∧
          grave.artifact? = none := by
  have laxer : List.Forall₂ Rule.IsLaxer laxRules strictRules :=
    .cons ⟨rfl, nofun⟩ (.cons ⟨rfl, fun _ => rfl⟩ (.cons ⟨rfl, nofun⟩ .nil))
  obtain ⟨onlyRejects, answered⟩ := ofLines_onlyRejects {} laxer none ["A \x7b", "\x7d"]
  obtain ⟨mild, -, passed, -⟩ := answered _ rfl
  have told :
      ((Generator.mk {} laxRules).ofLines none ["A \x7b", "\x7d"]).toOption.map
          (fun generation => (generation.artifact?.isSome, generation.schema?)) =
        some (true, some { name := "A" }) := by
    decide +kernel
  rw [passed] at told
  obtain ⟨produced, schema⟩ := Prod.mk.inj (Option.some.inj told)
  refine ⟨laxer, ⟨mild, passed, produced⟩,
    (onlyRejects.newlyRejected mild _ passed produced schema).mpr ?_⟩
  exact ⟨(⟨.hasVariants, false⟩, ⟨.hasVariants, true⟩), by simp [laxRules, strictRules], rfl, rfl,
    by decide⟩

end Generator

end TaggedUnion
