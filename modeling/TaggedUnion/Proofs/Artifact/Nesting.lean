import TaggedUnion.Proofs.Artifact.CodeLines

/-!
# Nesting of the code

The code of an artifact is level when no word of the schema changes the depth
of nesting by itself: the body of each class and of each method stands between
a line that opens it and a line that closes it.
-/

namespace TaggedUnion

/-- A text that holds as many opening as closing braces. -/
def Text.BracesMatch (text : Text) : Prop :=
  text.count '{' = text.count '}'

instance (text : Text) : Decidable text.BracesMatch :=
  inferInstanceAs (Decidable (text.count '{' = text.count '}'))

/-- A text that holds no brace. -/
def Text.BraceFree (text : Text) : Prop :=
  '{' ∉ text ∧ '}' ∉ text

instance (text : Text) : Decidable text.BraceFree :=
  inferInstanceAs (Decidable ('{' ∉ text ∧ '}' ∉ text))

theorem Text.BraceFree.bracesMatch
    {text : Text}
    (free : text.BraceFree) :
    text.BracesMatch := by
  rw [Text.BracesMatch, List.count_eq_zero.mpr free.1, List.count_eq_zero.mpr free.2]

/-- A schema whose names and types each hold matching braces. -/
abbrev Schema.BracesMatch (schema : Schema) : Prop :=
  schema.Each Text.BracesMatch

namespace Artifact

/-! ## Lines that keep the depth -/

theorem braceBalance_eq_zero
    {text : Text}
    (braces : text.BracesMatch) :
    braceBalance text = 0 := by
  rw [Text.BracesMatch] at braces
  rw [braceBalance, braces]
  omega

theorem isClosed_even : Text.IsClosed (braceBalance · = 0) where
  empty := rfl
  append firstEven secondEven := by
    rw [braceBalance_append, firstEven, secondEven]
    rfl

theorem braceBalance_declaration_of_field
    {field : Field}
    (braces : field.Each Text.BracesMatch) :
    braceBalance field.declaration = 0 :=
  declaration_of_closed isClosed_even rfl (braces.imp braceBalance_eq_zero)

theorem braceFree_binding (index : Nat) : (Match.binding index).BraceFree := by
  have digits : ∀ character ∈ Text.ofNat index, character.isDigit = true := by
    intro character member
    exact Nat.isDigit_of_mem_toDigits (by decide) (by decide) member
  have noOpening : '{' ∉ Text.ofNat index :=
    fun member => absurd (digits _ member) (by decide)
  have noClosing : '}' ∉ Text.ofNat index :=
    fun member => absurd (digits _ member) (by decide)
  simp [Match.binding, Text.BraceFree, noOpening, noClosing]

theorem braceBalance_binding (index : Nat) : braceBalance (Match.binding index) = 0 :=
  braceBalance_eq_zero (braceFree_binding index).bracesMatch

/-! ## Classes and methods -/

/-- Lines that declare fields at some indentation are level. -/
theorem isLevel_fieldLines
    {start : Text}
    {fields : List Field}
    (startEven : braceBalance start = 0)
    (braces : ∀ field ∈ fields, field.Each Text.BracesMatch) :
    IsLevel (fields.map fun field => .cat [start, field.declaration, ";"]) := by
  apply isLevel_of_even
  intro line member
  obtain ⟨field, fieldMember, rfl⟩ := List.mem_map.mp member
  simp only [braceBalance_cat_cons, braceBalance_cat_nil, startEven,
    braceBalance_declaration_of_field (braces field fieldMember)]
  rfl

/-- The declaration of a variant opens a class. -/
theorem braceBalance_declaration
    {unionName name : Text}
    (unionBraces : unionName.BracesMatch)
    (braces : name.BracesMatch) :
    braceBalance (declaration unionName name) = 1 := by
  simp only [declaration, declarationEnd, braceBalance_append, braceBalance_cat_cons,
    braceBalance_cat_nil, braceBalance_eq_zero braces, braceBalance_eq_zero unionBraces]
  rfl

theorem isLevel_variantInnerLines
    {schema : Schema}
    {variant : Variant}
    (braces : schema.BracesMatch)
    (variantBraces : variant.Each Text.BracesMatch) :
    IsLevel (variantInnerLines schema variant) := by
  have assignments :
      IsLevel
        ((assignedFields schema variant).map fun field =>
          .cat ["      this.", field.name, " = ", field.name, ";"]) := by
    apply isLevel_of_even
    intro line member
    obtain ⟨field, fieldMember, rfl⟩ := List.mem_map.mp member
    have nameEven :=
      braceBalance_eq_zero (each_assignedFields braces variantBraces field fieldMember).name
    simp only [braceBalance_cat_cons, braceBalance_cat_nil, nameEven]
    rfl
  have parametersEven :
      braceBalance (.joinWith ", " (parameters schema variant)) = 0 :=
    isClosed_even.joinWith rfl
      (parameters_of_closed isClosed_even rfl (by decide)
        (braces.imp braceBalance_eq_zero) (variantBraces.imp braceBalance_eq_zero))
  have constructorOpens : braceBalance (constructorLine schema variant) = 1 := by
    simp only [constructorLine, braceBalance_cat_cons, braceBalance_cat_nil,
      braceBalance_eq_zero variantBraces.name, parametersEven]
    rfl
  simp only [variantInnerLines, Text.stack, List.flatten_cons, List.flatten_nil,
    List.append_nil, List.singleton_append]
  refine .append (isLevel_fieldLines rfl variantBraces.fields) ?_
  exact .block constructorOpens rfl assignments isLevel_nil

theorem isLevel_variantLines
    {schema : Schema}
    {variant : Variant}
    (braces : schema.BracesMatch)
    (variantBraces : variant.Each Text.BracesMatch) :
    IsLevel (variantLines schema variant) := by
  rw [variantLines_eq]
  refine .cons rfl (.block (braceBalance_declaration braces.name variantBraces.name) rfl ?_ ?_)
  · exact isLevel_variantInnerLines braces variantBraces
  · exact .cons rfl isLevel_nil

/-- The tests of a match method open one block after the other and close the last one. -/
theorem isLevel_chainLines
    (method : Match)
    {names : List Text}
    (braces : ∀ name ∈ names, name.BracesMatch) :
    IsLevel (method.chainLines names) := by
  have tested :
      ∀ name ∈ names, ∀ index,
        braceBalance (Match.testLine name index) = if index = 0 then 1 else 0 := by
    intro name member index
    simp only [Match.testLine, braceBalance_cat_cons, braceBalance_cat_nil,
      braceBalance_eq_zero (braces name member), braceBalance_binding]
    split <;> rfl
  have called :
      ∀ name ∈ names, ∀ index, braceBalance (method.callLine name index) = 0 := by
    intro name member index
    cases method <;>
      simp only [Match.callLine, braceBalance_cat_cons, braceBalance_cat_nil,
        braceBalance_eq_zero (braces name member), braceBalance_binding] <;>
      rfl
  cases names with
  | nil => exact isLevel_nil
  | cons name rest =>
      -- Every test but the first closes the block of the test before it.
      have later : IsLevel ((rest.zipIdx 1).flatMap method.branchLines) := by
        apply isLevel_flatMap
        intro entry member
        have entryMember := List.mem_cons_of_mem name (List.fst_mem_of_mem_zipIdx member)
        have positive := List.le_snd_of_mem_zipIdx member
        apply isLevel_of_even
        intro line lineMember
        rcases List.mem_pair.mp lineMember with rfl | rfl
        · rw [tested entry.1 entryMember, if_neg (by omega)]
        · exact called entry.1 entryMember entry.2
      rw [Match.chainLines_eq, List.zipIdx_cons, List.flatMap_cons]
      exact .block (tested name List.mem_cons_self 0) rfl
        (.cons (called name List.mem_cons_self 0) later) isLevel_nil

theorem isLevel_matchLines
    (method : Match)
    {schema : Schema}
    (braces : schema.BracesMatch) :
    IsLevel (method.lines schema) := by
  have handlers :
      IsLevel
        (Match.withCommas (schema.variantNames.map (method.handler schema.allowNulls))) := by
    apply isLevel_of_even
    intro line member
    obtain ⟨handler, handlerMember, ending, ends, rfl⟩ := exists_of_mem_withCommas member
    obtain ⟨name, nameMember, rfl⟩ := List.mem_map.mp handlerMember
    have nameEven := braceBalance_eq_zero (braces.variantNames name nameMember)
    have nullEven :
        braceBalance (if schema.allowNulls then " = null".toList else []) = 0 := by
      split <;> rfl
    have endingEven : braceBalance ending = 0 := by
      rcases List.mem_pair.mp ends with rfl | rfl <;> rfl
    cases method <;>
      simp only [Match.handler, Match.delegate, braceBalance_cat_cons, braceBalance_cat_nil,
        nameEven, nullEven, endingEven] <;>
      rfl
  have chain := isLevel_chainLines method braces.variantNames
  rw [Match.lines_eq]
  cases method with
  | result =>
      rw [Match.footerLines, List.append_cons (Match.chainLines _ _)]
      refine .cons rfl (.append handlers (.block rfl rfl (.append chain ?_) ?_))
      · exact .cons rfl isLevel_nil
      · exact .cons rfl isLevel_nil
  | action => exact .cons rfl (.append handlers (.block rfl rfl chain isLevel_nil))

/-! ## The base class -/

/-- The lines above the class hold no brace that is not matched on its line. -/
theorem braceBalance_of_mem_aboveClassLines
    {schema : Schema}
    (braces : schema.BracesMatch) :
    ∀ line ∈ aboveClassLines schema, braceBalance line = 0 := by
  have heading : ∀ line ∈ headingLines none, braceBalance line = 0 := by
    decide
  intro line member
  simp only [aboveClassLines, Text.stack, List.flatten_cons, List.flatten_nil,
    List.append_nil, List.mem_append, List.mem_singleton] at member
  rcases member with inHeading | known | rfl
  · exact heading line inHeading
  · unfold knownTypeLines at known
    split at known
    · rcases List.mem_map.mp known with ⟨name, nameMember, rfl⟩
      simp only [braceBalance_cat_cons, braceBalance_cat_nil,
        braceBalance_eq_zero (braces.variantNames name nameMember)]
      rfl
    · cases known
  · rfl

theorem braceBalance_classLine
    {schema : Schema}
    (braces : schema.BracesMatch) :
    braceBalance (classLine schema) = 1 := by
  simp only [classLine, braceBalance_cat_cons, braceBalance_cat_nil,
    braceBalance_eq_zero braces.name]
  rfl

theorem isLevel_classFrontLines
    {schema : Schema}
    (braces : schema.BracesMatch) :
    IsLevel (classFrontLines schema) := by
  have constructorEven :
      braceBalance (.cat ["  private ", schema.name, "() \x7b \x7d"]) = 0 := by
    simp only [braceBalance_cat_cons, braceBalance_cat_nil, braceBalance_eq_zero braces.name]
    rfl
  have gap : IsLevel (if schema.fixedLines.isEmpty then [] else [""]) := by
    split
    · exact isLevel_nil
    · exact .cons rfl isLevel_nil
  simp only [classFrontLines, sharedFieldLines, Text.stack, List.flatten_cons,
    List.flatten_nil, List.append_nil]
  refine .append ?_ (.append (.append ?_ (.cons rfl isLevel_nil)) gap)
  · exact .cons constructorEven (.cons rfl (.cons rfl (.cons rfl isLevel_nil)))
  · exact isLevel_fieldLines rfl braces.sharedFields

theorem isLevel_classBodyLines
    {schema : Schema}
    (braces : schema.BracesMatch) :
    IsLevel (classBodyLines schema) := by
  have variants : IsLevel (schema.variants.flatMap (variantLines schema)) :=
    isLevel_flatMap fun variant member =>
      isLevel_variantLines braces (braces.variants variant member)
  have methods :=
    (isLevel_matchLines .result braces).append (isLevel_matchLines .action braces)
  rw [classBodyLines_eq]
  exact (isLevel_classFrontLines braces).append (variants.append methods)

/-- The code of an artifact is level if the braces in every word of the schema match. -/
theorem isLevel_codeLines
    {schema : Schema}
    (braces : schema.BracesMatch) :
    IsLevel (codeLines schema) := by
  have above := isLevel_of_even (braceBalance_of_mem_aboveClassLines braces)
  have body := isLevel_classBodyLines braces
  rw [codeLines_eq]
  exact above.append (.block (braceBalance_classLine braces) rfl body isLevel_nil)

end Artifact

end TaggedUnion
