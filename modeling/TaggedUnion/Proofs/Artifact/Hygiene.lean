import TaggedUnion.Proofs.Artifact.Dispatch
import TaggedUnion.Proofs.Generation.Judgement

/-!
# Identifiers of match methods

A match method introduces identifiers of two kinds.  Its parameters bear the names of
the variants, which are any words of the document.  The variables of its tests are
numbered by position, whatever the variants are called.

Where the names of variants are unique, each kind is free of repetitions.  So a method
introduces no identifier twice if and only if no variant is named like the variable of
one of the tests.  A variant that is, has its handler hidden by that variable.
-/

namespace TaggedUnion.Artifact

namespace Match

/-! ## Reading identifiers -/

/-- The lines of the method, as it stands last in a text. -/
def lastIn? (method : Match) (artifact : Text) : Option (List Text) :=
  (members method.opens (Text.lines artifact)).getLast?

/--
The identifiers that a method introduces: its parameters, and the variables of its tests.
All of its parameters must be readable.
-/
def identifiers? (method : Match) (lines : List Text) : Option (List Text) := do
  let parameters ← (parameterLines lines).mapM method.parameterIn?
  some (parameters.map (·.variant) ++ (method.branchesIn lines).map (·.binding))

/-- No identifier is introduced twice. -/
def IsHygienic (method : Match) (lines : List Text) : Prop :=
  ∃ identifiers, method.identifiers? lines = some identifiers ∧ identifiers.Nodup

theorem nodup_map_binding (count : Nat) : ((List.range count).map binding).Nodup :=
  List.nodup_range.map binding_injective

section

variable (method : Match) {schema : Schema} (worded : schema.IsWorded)

include worded

/-- The last method of an artifact is its own, whatever its remark and its fixed lines are. -/
theorem lastIn?_render (remark : Option Text) :
    method.lastIn? (render remark schema) =
      some (method.headerLine :: method.innerLines schema) := by
  let methods := Match.lines .result schema ++ (Match.lines .action schema ++ ["\x7d".toList])
  have shape :
      Artifact.lines remark schema =
        (remark.toList ++ (frontLines schema ++ (fixedLines schema ++
            schema.variants.flatMap (variantLines schema)))) ++ methods := by
    simp only [Artifact.lines_eq, backLines, methods, Text.stack, List.flatten_cons,
      List.flatten_nil, List.append_assoc, List.append_nil]
  have free : ∀ line ∈ methods, Text.BreakFree line := by
    intro line member
    refine (allOrdinary_matchMethods worded line ?_).breakFree
    simpa [Text.stack, methods] using member
  rw [lastIn?, render, shape, Text.unlines_append, Text.lines_unlines_below _ free]
  rcases members_suffix (Text.lines (Text.unlines _)) methods with ⟨earlier, found⟩
  rw [← found, members_matchMethods, List.getLast?_concat]

/-- The variables of a method are numbered from zero, one for each variant. -/
theorem map_binding_branchesIn :
    (method.branchesIn (method.headerLine :: method.innerLines schema)).map (·.binding) =
      (List.range schema.variants.length).map binding := by
  have indices : schema.variantNames.zipIdx.map Prod.snd = List.range schema.variants.length := by
    rw [List.zipIdx_map_snd, Schema.variantNames, List.length_map, List.range_eq_range']
  rw [branchesIn_member method worded, ← indices, List.map_map, List.map_map]
  rfl

/-- The identifiers of a method are the names of the variants and its variables. -/
theorem identifiers?_member :
    method.identifiers? (method.headerLine :: method.innerLines schema) =
      some (schema.variantNames ++ (List.range schema.variants.length).map binding) := by
  let parameters :=
    schema.variantNames.zipIdx.map fun entry =>
      Parameter.mk entry.1 schema.allowNulls
        (decide (entry.2 + 1 < schema.variantNames.length))
  have read :
      (parameterLines (method.headerLine :: method.innerLines schema)).mapM method.parameterIn? =
        some parameters := by
    apply mapM_eq_some_of_map_eq
    rw [parameterLines_member, map_parameterIn?_withCommas method worded.variantNames,
      List.map_map]
    rfl
  have names : parameters.map (·.variant) = schema.variantNames := by
    rw [List.map_map]
    exact List.zipIdx_map_fst 0 schema.variantNames
  rw [identifiers?, read, map_binding_branchesIn method worded]
  exact congrArg (fun handlers => some (handlers ++ _)) names

/-- No identifier is introduced twice if and only if the names of variants are distinct and
no variable has one of them. -/
theorem isHygienic_member_iff :
    method.IsHygienic (method.headerLine :: method.innerLines schema) ↔
      schema.variantNames.Nodup ∧
        ∀ index < schema.variants.length, binding index ∉ schema.variantNames := by
  have numbered := nodup_map_binding schema.variants.length
  rw [IsHygienic, identifiers?_member method worded]
  simp only [Option.some.injEq, exists_eq_left', List.nodup_append, numbered, true_and,
    List.mem_map, List.mem_range, forall_exists_index, and_imp, forall_apply_eq_imp_iff₂]
  refine and_congr_right fun _ => ⟨?_, ?_⟩
  · intro apart index inside member
    exact apart _ member index inside rfl
  · rintro apart name member index inside rfl
    exact apart index inside member

/-- In a hygienic method, every branch calls a handler that no variable hides. -/
theorem handler_notMem_of_isHygienic
    (hygienic : method.IsHygienic (method.headerLine :: method.innerLines schema)) :
    ∀ branch ∈ method.branchesIn (method.headerLine :: method.innerLines schema),
      ∃ call ∈ branch.call,
        call.handler ∉
          (method.branchesIn (method.headerLine :: method.innerLines schema)).map
            (·.binding) := by
  rw [map_binding_branchesIn method worded, branchesIn_member method worded]
  intro branch member
  rcases List.mem_map.mp member with ⟨entry, inEntries, rfl⟩
  refine ⟨_, rfl, fun hidden => ?_⟩
  rcases List.mem_map.mp hidden with ⟨index, inside, same⟩
  have isName : binding index ∈ schema.variantNames :=
    same ▸ List.fst_mem_of_mem_zipIdx inEntries
  exact ((isHygienic_member_iff method worded).mp hygienic).2 index (List.mem_range.mp inside)
    isName

end

end Match

/--
With unique names of variants enforced, the parameters of a match method are distinct, and
so are its variables, which are `s0`, `s1` and so on, one for each variant.  The method
introduces no identifier twice if and only if no variant has the name of one of the
variables.  No variable then hides the handler that is called in a branch.
-/
theorem identifiers_distinct_iff
    {generator : Generator}
    (enforced : ⟨.distinctVariants, true⟩ ∈ generator.rules)
    {source : Option Text}
    {document : List Text}
    {schema : Schema}
    {diagnostics : List Diagnostic}
    {artifact outputName : Text}
    (produced :
      generator.ofLines source document =
        .ok (.produced schema diagnostics artifact outputName))
    (method : Match) :
    ∃ lines,
      method.lastIn? artifact = some lines ∧
        method.identifiers? lines =
          some
            (schema.variantNames ++
              (List.range schema.variants.length).map fun index => 's' :: Text.ofNat index) ∧
        schema.variantNames.Nodup ∧
        ((List.range schema.variants.length).map fun index => 's' :: Text.ofNat index).Nodup ∧
        (method.IsHygienic lines ↔
          ∀ index < schema.variants.length, 's' :: Text.ofNat index ∉ schema.variantNames) ∧
        (method.IsHygienic lines →
          ∀ branch ∈ method.branchesIn lines,
            ∃ call ∈ branch.call, call.handler ∉ (method.branchesIn lines).map (·.binding)) := by
  rcases Generator.completed_of_produced produced with ⟨earlier, completed, noError, rfl⟩
  have worded := Reading.isWorded_of_completed completed
  have distinct : schema.variantNames.Nodup :=
    (Condition.violations_distinctVariants_eq_nil_iff schema).mp
      ((Rule.find?_checkAll_eq_none_iff _ _).mp noError _ enforced rfl)
  refine ⟨_, method.lastIn?_render worded _, method.identifiers?_member worded, distinct,
    Match.nodup_map_binding _, ?_, method.handler_notMem_of_isHygienic worded⟩
  rw [method.isHygienic_member_iff worded]
  exact and_iff_right distinct

/-- A generator that forbids repeated names and remarks on the origin of artifacts. -/
def strictGenerator : Generator :=
  Generator.make { uniqueVariantNames := .bool true, addGenerationComment := .bool true } none

/-- An origin that breaks off the remark and opens a method below it. -/
def intrudingSource : Text :=
  "a\n  public T Match<T>(\n"

/-- A document that opens a method in a fixed line, and whose variants are almost variables. -/
def nearlyClashingDocument : List Text :=
  ["Union \x7b", "&public void Match(", "s2 \x7b", "\x7d", "s01 \x7b", "\x7d", "\x7d"]

/-- The schema of that document. -/
def nearlyClashingSchema : Schema where
  name := "Union"
  fixedLines := ["public void Match("]
  variants := [⟨"s2", []⟩, ⟨"s01", []⟩]

/-- Both methods are hygienic, as there are only two variables and none has a leading zero. -/
theorem identifiers_nearlyClashing :
    ⟨.distinctVariants, true⟩ ∈ strictGenerator.rules ∧
      ∃ diagnostics artifact outputName,
        strictGenerator.ofLines (some intrudingSource) nearlyClashingDocument =
            .ok (.produced nearlyClashingSchema diagnostics artifact outputName) ∧
          ∀ method : Match,
            ∃ lines, method.lastIn? artifact = some lines ∧ method.IsHygienic lines := by
  have enforced : ⟨.distinctVariants, true⟩ ∈ strictGenerator.rules := by decide
  have completed :
      Reading.ofLines nearlyClashingDocument =
        .completed nearlyClashingSchema (Reading.ofLines nearlyClashingDocument).diagnostics := by
    decide +kernel
  have found :
      (Rule.checkAll strictGenerator.rules nearlyClashingSchema).find? (·.isError) = none := by
    decide +kernel
  have produced :=
    Generator.ofLines_of_text strictGenerator rfl (some intrudingSource) completed found
  refine ⟨enforced, _, _, _, produced, fun method => ?_⟩
  rcases identifiers_distinct_iff enforced produced method with
    ⟨lines, read, -, -, -, hygienic_iff, -⟩
  exact ⟨lines, read, hygienic_iff.mpr (by decide)⟩

/-- A document whose only variant has the name of the variable that holds it. -/
def clashingDocument : List Text :=
  ["Union \x7b", "s0 \x7b", "\x7d", "\x7d"]

/-- The schema of that document. -/
def clashingSchema : Schema where
  name := "Union"
  variants := [⟨"s0", []⟩]

/-- The variable hides the handler that is called in its branch, with that variable. -/
theorem variable_hides_handler :
    ⟨.distinctVariants, true⟩ ∈ strictGenerator.rules ∧
      ∃ diagnostics artifact outputName,
        strictGenerator.ofLines none clashingDocument =
            .ok (.produced clashingSchema diagnostics artifact outputName) ∧
          ∀ method : Match,
            ∃ lines,
              method.lastIn? artifact = some lines ∧
                ¬ method.IsHygienic lines ∧
                method.branchesIn lines = [⟨"if", "s0", "s0", some ⟨"s0", "s0"⟩⟩] := by
  have enforced : ⟨.distinctVariants, true⟩ ∈ strictGenerator.rules := by decide
  have completed :
      Reading.ofLines clashingDocument =
        .completed clashingSchema (Reading.ofLines clashingDocument).diagnostics := by
    decide +kernel
  have found : (Rule.checkAll strictGenerator.rules clashingSchema).find? (·.isError) = none := by
    decide +kernel
  have produced := Generator.ofLines_of_text strictGenerator rfl none completed found
  have worded := Reading.isWorded_of_completed completed
  refine ⟨enforced, _, _, _, produced, fun method => ⟨_, method.lastIn?_render worded _, ?_, ?_⟩⟩
  · rw [method.isHygienic_member_iff worded]
    rintro ⟨-, apart⟩
    exact apart 0 (by decide) (by decide)
  · exact method.branchesIn_member worded

end TaggedUnion.Artifact
