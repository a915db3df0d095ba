import TaggedUnion.Generator
import TaggedUnion.Proofs.Artifact.CodeLines

/-!
# The schema can be recovered from its artifact

Documents with the same artifact have the same schema.  The lines of an
artifact come in groups, and each group ends at the first line that cannot
belong to it, although words may hold any visible characters and fixed lines
may imitate the lines around them.

A constructor's parameters alone do not tell which shared fields have
defaults, as a type may itself look like a default.  Together with the
declarations of the fields they do, because a parameter with a default holds
two more spaces than one without.
-/

namespace TaggedUnion

/-! ## Framed texts -/

theorem Text.cat_frame_inj
    {opening closing left right : Text}
    (equal : cat [opening, left, closing] = cat [opening, right, closing]) :
    left = right := by
  simp only [cat, List.flatten_cons, List.flatten_nil, List.append_nil] at equal
  exact List.append_cancel_right (List.append_cancel_left equal)

theorem Field.IsWorded.declaration_inj
    {first second : Field}
    (firstWorded : first.IsWorded)
    (secondWorded : second.IsWorded)
    (equal : first.declaration = second.declaration) :
    first = second := by
  obtain ⟨sameType, sameName⟩ :=
    firstWorded.type.append_space_inj secondWorded.type
      (by simpa [Field.declaration, Text.cat] using equal)
  cases first
  cases second
  simp_all

namespace Artifact

/-- Fields are determined by the lines that declare them. -/
theorem fieldLines_inj
    {start : Text}
    {first second : List Field}
    (firstWorded : ∀ field ∈ first, field.IsWorded)
    (secondWorded : ∀ field ∈ second, field.IsWorded)
    (equal :
      (first.map fun field => Text.cat [start, field.declaration, ";"]) =
        second.map fun field => Text.cat [start, field.declaration, ";"]) :
    first = second := by
  apply map_inj_of_mem _ equal
  intro left leftMember right rightMember sameLine
  exact (firstWorded left leftMember).declaration_inj (secondWorded right rightMember)
    (Text.cat_frame_inj sameLine)

/-! ## The lines above the variants -/

/-- The lines of the base class and its fields tell the name and the fields. -/
theorem frontLines_inj
    {first second : Schema}
    (firstWorded : first.IsWorded)
    (secondWorded : second.IsWorded)
    {firstRest secondRest : List Text}
    (equal : frontLines first ++ firstRest = frontLines second ++ secondRest) :
    knownTypeLines first = knownTypeLines second ∧
      first.name = second.name ∧
      first.sharedFields = second.sharedFields ∧
      firstRest = secondRest := by
  have knownStart (schema : Schema) :
      ∀ line ∈ knownTypeLines schema, "[KnownType".toList <+: line := by
    intro line member
    unfold knownTypeLines at member
    split at member
    · obtain ⟨name, -, rfl⟩ := List.mem_map.mp member
      exact ⟨_, rfl⟩
    · cases member
  simp only [frontLines, baseClassLines, sharedFieldLines, Text.stack, List.flatten_cons,
    List.flatten_nil, List.append_nil, List.append_assoc, List.cons_append,
    List.nil_append, List.append_cancel_left_eq] at equal
  obtain ⟨sameKnown, -, equal⟩ :=
    append_mark_inj ("[KnownType".toList <+: ·) (knownStart first) (knownStart second)
      (by decide) (by decide) equal
  obtain ⟨sameClass, equal⟩ := List.cons.inj equal
  have rest := (List.cons.inj (List.cons.inj (List.cons.inj (List.cons.inj equal).2).2).2).2
  have declares (schema : Schema) :
      ∀ line ∈ schema.sharedFields.map fun field =>
          Text.cat ["  public ", field.declaration, ";"],
        line ≠ [] := by
    intro line member
    obtain ⟨field, -, rfl⟩ := List.mem_map.mp member
    exact List.cons_ne_nil _ _
  obtain ⟨sameFields, -, sameRest⟩ :=
    append_mark_inj (· ≠ []) (declares first) (declares second)
      (not_not_intro rfl) (not_not_intro rfl) rest
  exact ⟨sameKnown, Text.cat_frame_inj sameClass,
    fieldLines_inj firstWorded.sharedFields secondWorded.sharedFields sameFields, sameRest⟩

/-- What stands below the fixed lines is not mistaken for the line that introduces them. -/
theorem head?_backLines_ne (schema : Schema) :
    (backLines schema).head? ≠ some fixedMark := by
  rw [backLines]
  cases schema.variants with
  | nil => exact fun same => absurd (Option.some.inj same) (by decide)
  | cons variant rest => exact fun same => absurd (Option.some.inj same) (by decide)

/--
The fixed lines are found again although they may imitate the line that ends
them: none of them is empty once it is indented, and an empty line follows.
-/
theorem fixedLines_inj
    {first second : Schema}
    (equal :
      fixedLines first ++ backLines first = fixedLines second ++ backLines second) :
    first.fixedLines = second.fixedLines ∧ backLines first = backLines second := by
  have indentedNonempty (schema : Schema) : ∀ line ∈ indentedLines schema, line ≠ [] := by
    intro line member
    rcases List.mem_append.mp member with indented | ending
    · obtain ⟨fixedLine, -, rfl⟩ := List.mem_map.mp indented
      exact List.cons_ne_nil _ _
    · obtain rfl := List.mem_singleton.mp ending
      decide
  cases firstFixed : first.fixedLines.isEmpty with
  | true =>
      rw [fixedLines_of_none firstFixed, List.nil_append] at equal
      cases secondFixed : second.fixedLines.isEmpty with
      | true =>
          rw [fixedLines_of_none secondFixed, List.nil_append] at equal
          rw [List.isEmpty_iff.mp firstFixed, List.isEmpty_iff.mp secondFixed]
          exact ⟨rfl, equal⟩
      | false =>
          rw [fixedLines_of_some secondFixed] at equal
          exact (head?_backLines_ne first (by rw [equal]; rfl)).elim
  | false =>
      rw [fixedLines_of_some firstFixed] at equal
      cases secondFixed : second.fixedLines.isEmpty with
      | true =>
          rw [fixedLines_of_none secondFixed, List.nil_append] at equal
          exact (head?_backLines_ne second (by rw [← equal]; rfl)).elim
      | false =>
          -- A fixed line may equal the line that ends the region, but never the empty one.
          rw [fixedLines_of_some secondFixed] at equal
          simp only [List.cons_append, List.append_assoc, List.nil_append] at equal
          obtain ⟨sameIndented, -, sameBack⟩ :=
            append_mark_inj (· ≠ []) (indentedNonempty first) (indentedNonempty second)
              (not_not_intro rfl) (not_not_intro rfl) (List.cons.inj equal).2
          refine ⟨map_inj_of_mem ?_ (List.append_cancel_right sameIndented), sameBack⟩
          intro left _ right _ sameLine
          simpa [Text.cat] using sameLine

/-! ## The variants -/

theorem declaration_inj
    {firstUnion secondUnion first second : Text}
    (firstWord : Text.IsWord first)
    (secondWord : Text.IsWord second)
    (equal : declaration firstUnion first = declaration secondUnion second) :
    first = second := by
  rw [declaration, declaration] at equal
  exact (firstWord.append_space_inj secondWord (List.append_cancel_left equal)).1

/-- The lines of a variant tell its name, its fields and its constructor's parameters. -/
theorem variantLines_inj
    {firstSchema secondSchema : Schema}
    {first second : Variant}
    (firstWorded : first.IsWorded)
    (secondWorded : second.IsWorded)
    {firstRest secondRest : List Text}
    (equal :
      variantLines firstSchema first ++ firstRest =
        variantLines secondSchema second ++ secondRest) :
    first = second ∧
      constructorLine firstSchema first = constructorLine secondSchema second ∧
      firstRest = secondRest := by
  have fieldsEnd (variant : Variant) :
      ∀ line ∈ variant.fields.map fun field =>
          Text.cat ["    public ", field.declaration, ";"],
        line.getLast? = some ';' := by
    intro line member
    obtain ⟨field, -, rfl⟩ := List.mem_map.mp member
    simp only [Text.getLast?_cat_cons, Text.getLast?_cat_nil]
    rfl
  have constructorEnds (schema : Schema) (variant : Variant) :
      ¬ (constructorLine schema variant).getLast? = some ';' := by
    rw [getLast?_constructorLine]
    decide
  have assignmentsStart (schema : Schema) (variant : Variant) :
      ∀ line ∈ (assignedFields schema variant).map fun field =>
          Text.cat ["      this.", field.name, " = ", field.name, ";"],
        "      this.".toList <+: line := by
    intro line member
    obtain ⟨field, -, rfl⟩ := List.mem_map.mp member
    exact ⟨_, rfl⟩
  simp only [variantLines_eq, variantInnerLines, Text.stack, List.flatten_cons,
    List.flatten_nil, List.append_nil, List.append_assoc, List.cons_append,
    List.nil_append] at equal
  obtain ⟨sameDeclaration, equal⟩ := List.cons.inj (List.cons.inj equal).2
  -- Fields and the constructor start alike, so the fields are told by how they end.
  obtain ⟨sameFields, sameConstructor, equal⟩ :=
    append_mark_inj (·.getLast? = some ';') (fieldsEnd first) (fieldsEnd second)
      (constructorEnds firstSchema first) (constructorEnds secondSchema second) equal
  obtain ⟨-, -, equal⟩ :=
    append_mark_inj ("      this.".toList <+: ·) (assignmentsStart firstSchema first)
      (assignmentsStart secondSchema second) (by decide) (by decide) equal
  refine ⟨?_, sameConstructor, (List.cons.inj (List.cons.inj equal).2).2⟩
  have sameName := declaration_inj firstWorded.name secondWorded.name sameDeclaration
  have sameFields := fieldLines_inj firstWorded.fields secondWorded.fields sameFields
  cases first
  cases second
  simp_all

/-- The variants end at the first match method. -/
theorem flatMap_variantLines_inj
    {firstSchema secondSchema : Schema}
    {first second : List Variant}
    (firstWorded : ∀ variant ∈ first, variant.IsWorded)
    (secondWorded : ∀ variant ∈ second, variant.IsWorded)
    {mark : Text}
    (otherMark : mark ≠ "  [Serializable]".toList)
    {firstRest secondRest : List Text}
    (equal :
      first.flatMap (variantLines firstSchema) ++ mark :: firstRest =
        second.flatMap (variantLines secondSchema) ++ mark :: secondRest) :
    first = second ∧
      (∀ variant ∈ first,
        constructorLine firstSchema variant = constructorLine secondSchema variant) ∧
      firstRest = secondRest := by
  induction first generalizing second with
  | nil =>
      cases second with
      | nil => exact ⟨rfl, by simp, (List.cons.inj equal).2⟩
      | cons variant second => exact (otherMark (List.cons.inj equal).1).elim
  | cons variant first induction =>
      cases second with
      | nil => exact (otherMark (List.cons.inj equal).1.symm).elim
      | cons other second =>
          rw [List.flatMap_cons, List.flatMap_cons, List.append_assoc,
            List.append_assoc] at equal
          obtain ⟨rfl, sameConstructor, equal⟩ :=
            variantLines_inj (firstWorded variant List.mem_cons_self)
              (secondWorded other List.mem_cons_self) equal
          obtain ⟨rfl, sameConstructors, sameRest⟩ :=
            induction
              (fun inner member => firstWorded inner (List.mem_cons_of_mem _ member))
              (fun inner member => secondWorded inner (List.mem_cons_of_mem _ member)) equal
          exact ⟨rfl, List.forall_mem_cons.mpr ⟨sameConstructor, sameConstructors⟩, sameRest⟩

/-! ## The flags -/

theorem length_withCommas (group : List Text) :
    (Match.withCommas group).length = group.length := by
  fun_induction Match.withCommas group with
  | case1 => rfl
  | case2 line => rfl
  | case3 line rest _ induction => rw [List.length_cons, induction, List.length_cons]

theorem handler_inj
    {method : Match}
    {first second : Bool}
    {name : Text}
    (equal : method.handler first name = method.handler second name) :
    first = second := by
  have sameLength := congrArg List.length equal
  cases first <;> cases second <;> simp [Match.handler, Text.cat] at sameLength ⊢

/-- The first handler of a match method tells whether handlers may be left out. -/
theorem handlers_inj
    {method : Match}
    {first second : Bool}
    {names : List Text}
    (nonempty : names ≠ [])
    {firstRest secondRest : List Text}
    (equal :
      Match.withCommas (names.map (method.handler first)) ++ firstRest =
        Match.withCommas (names.map (method.handler second)) ++ secondRest) :
    first = second := by
  have sameHandlers := (List.append_inj equal (by simp [length_withCommas])).1
  cases names with
  | nil => exact (nonempty rfl).elim
  | cons name rest =>
      cases rest with
      | nil => exact handler_inj (List.cons.inj sameHandlers).1
      | cons other rest =>
          have sameLine := (List.cons.inj sameHandlers).1
          exact handler_inj (List.append_cancel_right sameLine)

theorem knownTypeLines_inj
    {first second : Schema}
    (nonempty : first.variants ≠ [])
    (sameVariants : first.variants = second.variants)
    (equal : knownTypeLines first = knownTypeLines second) :
    first.knownTypes = second.knownTypes := by
  have firstNonempty : first.variantNames ≠ [] := by simpa [Schema.variantNames] using nonempty
  have secondNonempty : second.variantNames ≠ [] := by
    simpa [Schema.variantNames, ← sameVariants] using nonempty
  cases firstKnown : first.knownTypes <;> cases secondKnown : second.knownTypes <;>
    simp_all [knownTypeLines]

/-! ## The defaults -/

theorem count_space_joinWith (pieces : List Text) :
    (Text.joinWith ", " pieces).count ' ' =
      (Text.cat pieces).count ' ' + (pieces.length - 1) := by
  unfold Text.joinWith Text.cat
  induction pieces with
  | nil => rfl
  | cons piece rest induction =>
      cases rest with
      | nil => simp
      | cons next rest =>
          have separatorCount : (", ".toList).count ' ' = 1 := by decide
          rw [List.intercalate_cons_cons, List.count_append, List.count_append, induction,
            separatorCount]
          simp only [List.flatten_cons, List.count_append, List.length_cons]
          omega

theorem count_space_cat_map
    {α : Type}
    {elements : List α}
    {form : α → Text}
    {spaces : Nat}
    (constant : ∀ element ∈ elements, (form element).count ' ' = spaces) :
    (Text.cat (elements.map form)).count ' ' = elements.length * spaces := by
  unfold Text.cat
  induction elements with
  | nil => simp
  | cons element rest induction =>
      rw [List.map_cons, List.flatten_cons, List.count_append,
        constant element List.mem_cons_self,
        induction fun other member => constant other (List.mem_cons_of_mem _ member),
        List.length_cons, Nat.succ_mul]
      omega

/-- Spaces in the parameters: one in each, two more in each default, one before each but the first. -/
theorem count_space_parameters
    {schema : Schema}
    {variant : Variant}
    (worded : schema.IsWorded)
    (variantWorded : variant.IsWorded) :
    (Text.joinWith ", " (parameters schema variant)).count ' ' =
      schema.baseFields.length + variant.fields.length + schema.defaultFields.length * 3 +
        (schema.baseFields.length + variant.fields.length + schema.defaultFields.length -
          1) := by
  have declared {field : Field} (fieldWorded : field.IsWorded) :
      field.declaration.count ' ' = 1 := by
    simp [Field.declaration, Text.cat, Text.count_space_eq_zero fieldWorded.type,
      Text.count_space_eq_zero fieldWorded.name]
  have demanded :
      (Text.cat ((schema.baseFields ++ variant.fields).map (·.declaration))).count ' ' =
        (schema.baseFields ++ variant.fields).length * 1 := by
    apply count_space_cat_map
    intro field member
    rcases List.mem_append.mp member with base | own
    · exact declared (worded.baseFields field base)
    · exact declared (variantWorded.fields field own)
  have optional :
      (Text.cat
        (schema.defaultFields.map fun field =>
          Text.cat [field.declaration, " = ", defaultValue field.type])).count ' ' =
        schema.defaultFields.length * 3 := by
    apply count_space_cat_map
    intro field member
    have fieldWorded := worded.defaultFields field member
    simp [defaultValue, Text.cat, declared fieldWorded,
      Text.count_space_eq_zero fieldWorded.type]
  have together :
      (Text.cat (parameters schema variant)).count ' ' =
        schema.baseFields.length + variant.fields.length +
          schema.defaultFields.length * 3 := by
    rw [Text.cat, parameters, List.flatten_append, List.count_append]
    rw [Text.cat] at demanded optional
    rw [demanded, optional, List.length_append, Nat.mul_one]
  rw [count_space_joinWith, together, parameters]
  simp only [List.length_append, List.length_map]

/--
The constructor of a variant tells which of the shared fields have defaults,
once the shared fields are known.
-/
theorem constructorLine_inj
    {first second : Schema}
    (firstWorded : first.IsWorded)
    (secondWorded : second.IsWorded)
    {variant : Variant}
    (variantWorded : variant.IsWorded)
    (sameShared : first.sharedFields = second.sharedFields)
    (equal : constructorLine first variant = constructorLine second variant) :
    first.baseFields = second.baseFields ∧ first.defaultFields = second.defaultFields := by
  have sameParameters :
      Text.joinWith ", " (parameters first variant) =
        Text.joinWith ", " (parameters second variant) := by
    simp only [constructorLine, Text.cat, List.flatten_cons, List.flatten_nil,
      List.append_nil, List.append_cancel_left_eq] at equal
    exact List.append_cancel_right equal
  have sameSpaces := congrArg (List.count ' ') sameParameters
  rw [count_space_parameters firstWorded variantWorded,
    count_space_parameters secondWorded variantWorded] at sameSpaces
  -- With as many shared fields on both sides, as many spaces mean as many defaults.
  have sameLength := congrArg List.length sameShared
  simp only [Schema.sharedFields, List.length_append] at sameLength
  exact List.append_inj sameShared (by omega)

/-! ## The whole schema -/

theorem breakFree_fixedLines
    {schema : Schema}
    (fixedFree : ∀ line ∈ schema.fixedLines, Text.BreakFree line) :
    ∀ line ∈ fixedLines schema, Text.BreakFree line := by
  intro line member
  cases fixed : schema.fixedLines.isEmpty with
  | true =>
      rw [fixedLines_of_none fixed] at member
      cases member
  | false =>
      simp only [fixedLines_of_some fixed, indentedLines, List.mem_cons, List.mem_append,
        List.mem_map, List.not_mem_nil, or_false] at member
      rcases member with rfl | (⟨fixedLine, fixedMember, rfl⟩ | rfl) | rfl
      · decide
      · simp only [Text.breakFree_cat_cons, Text.breakFree_cat_nil, and_true]
        exact ⟨by decide, fixedFree fixedLine fixedMember⟩
      · decide
      · decide

/-- The lines below the remark hold no breaks. -/
theorem breakFree_lines
    {schema : Schema}
    (worded : schema.IsWorded)
    (fixedFree : ∀ line ∈ schema.fixedLines, Text.BreakFree line) :
    ∀ line ∈ frontLines schema ++ (fixedLines schema ++ backLines schema),
      Text.BreakFree line := by
  have inCode (line : Text) (member : line ∈ frontLines schema ∨ line ∈ backLines schema) :
      Text.BreakFree line := by
    apply breakFree_codeLines worded
    rcases member with front | back
    · simp [codeLines, Text.stack, front]
    · simp [codeLines, Text.stack, back]
  intro line member
  rcases List.mem_append.mp member with front | below
  · exact inCode line (Or.inl front)
  · rcases List.mem_append.mp below with fixed | back
    · exact breakFree_fixedLines fixedFree line fixed
    · exact inCode line (Or.inr back)

theorem backLines_inj
    {first second : Schema}
    (firstWorded : first.IsWorded)
    (secondWorded : second.IsWorded)
    (equal : backLines first = backLines second) :
    first.variants = second.variants ∧
      (∀ variant ∈ first.variants,
        constructorLine first variant = constructorLine second variant) ∧
      (first.variants ≠ [] → first.allowNulls = second.allowNulls) := by
  simp only [backLines, Text.stack, List.flatten_cons, List.flatten_nil, List.append_nil,
    Match.lines_eq .result, List.cons_append, List.append_assoc] at equal
  obtain ⟨sameVariants, sameConstructors, sameMethods⟩ :=
    flatMap_variantLines_inj firstWorded.variants secondWorded.variants (by decide) equal
  refine ⟨sameVariants, sameConstructors, ?_⟩
  intro nonempty
  have sameNames : second.variantNames = first.variantNames := by
    rw [Schema.variantNames, Schema.variantNames, sameVariants]
  rw [sameNames] at sameMethods
  exact handlers_inj (by simpa [Schema.variantNames] using nonempty) sameMethods

/--
The artifact of a schema tells its name, its shared fields, its fixed lines and
its variants, and all of the schema if there is a variant.
-/
theorem schema_eq_of_render_eq
    {firstText secondText : Text}
    {first second : Schema}
    {firstDiagnostics secondDiagnostics : List Diagnostic}
    (firstCompleted : Reading.ofText firstText = .completed first firstDiagnostics)
    (secondCompleted : Reading.ofText secondText = .completed second secondDiagnostics)
    (settings : Settings)
    (source : Option Text)
    (equal :
      Generator.render settings source first = Generator.render settings source second) :
    (first.name = second.name ∧
        first.sharedFields = second.sharedFields ∧
        first.fixedLines = second.fixedLines ∧
        first.variants = second.variants) ∧
      (first.variants ≠ [] → first = second) := by
  have firstWorded := Reading.isWorded_of_completed firstCompleted
  have secondWorded := Reading.isWorded_of_completed secondCompleted
  have firstFree :=
    breakFree_lines firstWorded (Reading.breakFree_fixedLines_of_completed firstCompleted)
  have secondFree :=
    breakFree_lines secondWorded (Reading.breakFree_fixedLines_of_completed secondCompleted)
  rw [Generator.render, Generator.render, render, render, lines_eq, lines_eq,
    Text.unlines_append (Option.toList _), Text.unlines_append (Option.toList _)] at equal
  -- The remark may hold breaks, but it is the same text on both sides.
  have sameLines :=
    Text.unlines_inj (fun line member => (firstFree line member).newline_notMem)
      (fun line member => (secondFree line member).newline_notMem)
      (List.append_cancel_left equal)
  obtain ⟨sameKnown, sameName, sameShared, sameBelow⟩ :=
    frontLines_inj firstWorded secondWorded sameLines
  obtain ⟨sameFixed, sameBack⟩ := fixedLines_inj sameBelow
  obtain ⟨sameVariants, sameConstructors, sameNulls⟩ :=
    backLines_inj firstWorded secondWorded sameBack
  refine ⟨⟨sameName, sameShared, sameFixed, sameVariants⟩, ?_⟩
  intro nonempty
  obtain ⟨variant, member⟩ := List.exists_mem_of_ne_nil _ nonempty
  obtain ⟨sameBase, sameDefaults⟩ :=
    constructorLine_inj firstWorded secondWorded (firstWorded.variants variant member)
      sameShared (sameConstructors variant member)
  have sameFlag := knownTypeLines_inj nonempty sameVariants sameKnown
  have sameNull := sameNulls nonempty
  cases first
  cases second
  simp_all

/-- A document with one shared field, which may be optional, and at most one variant. -/
def sampleText (isOptional hasVariant : Bool) : Text :=
  .cat
    ["Id \x7b\n", if isOptional then "%" else [], "default(int) value\n",
      if hasVariant then "Some \x7b\n\x7d\n" else [], "\x7d"]

/-- The schema of a sample document. -/
def sampleSchema (isOptional hasVariant : Bool) : Schema where
  name := "Id"
  baseFields := if isOptional then [] else [⟨"default(int)", "value"⟩]
  defaultFields := if isOptional then [⟨"default(int)", "value"⟩] else []
  variants := if hasVariant then [⟨"Some", []⟩] else []

theorem completed_sampleText (isOptional hasVariant : Bool) :
    Reading.ofText (sampleText isOptional hasVariant) =
      .completed (sampleSchema isOptional hasVariant)
        (Reading.ofText (sampleText isOptional hasVariant)).diagnostics := by
  revert isOptional hasVariant
  decide +kernel

/-- Whether a field is optional shows in the artifact once there is a variant, not before. -/
theorem render_sampleSchema :
    (Generator.render {} none (sampleSchema false false) =
          Generator.render {} none (sampleSchema true false) ∧
        (sampleSchema false false).sharedFields = (sampleSchema true false).sharedFields) ∧
      Generator.render {} none (sampleSchema false true) ≠
        Generator.render {} none (sampleSchema true true) := by
  have sameArtifact :
      Generator.render {} none (sampleSchema false false) =
        Generator.render {} none (sampleSchema true false) := by
    decide +kernel
  refine ⟨⟨sameArtifact, ?_⟩, ?_⟩
  · exact (schema_eq_of_render_eq (completed_sampleText false false)
      (completed_sampleText true false) _ _ sameArtifact).1.2.1
  · intro equal
    have sameSchema :=
      (schema_eq_of_render_eq (completed_sampleText false true)
        (completed_sampleText true true) _ _ equal).2 (by decide)
    exact absurd sameSchema (by decide)

end Artifact

end TaggedUnion
