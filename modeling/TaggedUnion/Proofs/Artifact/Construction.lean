import TaggedUnion.Proofs.Artifact.Members

/-!
# Constructors set every field

The class of a variant is read back from its lines: the fields that it declares,
its constructor, and what its constructor assigns.  The fields that all variants
share are read from the lines of the whole artifact, where they stand at the
indentation of the base class.

The constructor takes the shared fields and the fields of the variant, those with
a default last, and sets each of them once, from the parameter with its name.
-/

namespace TaggedUnion.Artifact

/-! ## Reading a class -/

/-- Read the declaration of a field behind the start that such lines have. -/
def fieldIn? (start line : Text) : Option Field := do
  let declared ← Text.between? start ";" line
  match Text.words declared with
  | [type, name] => some ⟨type, name⟩
  | _ => none

/-- Read the name and the parameters from the line that opens a constructor. -/
def constructorIn? (line : Text) : Option Text :=
  Text.between? "    public " ") \x7b" line

/-- An assignment to a field. -/
structure Assignment where
  field : Text
  value : Text
deriving DecidableEq, Repr

/-- Read an assignment to a field of the instance at hand. -/
def assignmentIn? (line : Text) : Option Assignment := do
  let assigned ← Text.between? "      this." ";" line
  let parts ← Text.splitAt? " = " assigned
  return ⟨parts.1, parts.2⟩

/-- A parameter of a constructor. -/
structure ConstructorParameter where
  /-- The field that it is declared like. -/
  field : Field
  isOptional : Bool
deriving DecidableEq, Repr

/-- A parameter as it is written, with the default value of its type if it is optional. -/
def ConstructorParameter.text (parameter : ConstructorParameter) : Text :=
  .cat
    [parameter.field.type, " ", parameter.field.name,
      if parameter.isOptional then .cat [" = default(", parameter.field.type, ")"] else []]

/-- The parameters that the constructor of a variant should have, in their order. -/
def constructorParameters (schema : Schema) (variant : Variant) : List ConstructorParameter :=
  schema.baseFields.map (⟨·, false⟩) ++
    (variant.fields.map (⟨·, false⟩) ++ schema.defaultFields.map (⟨·, true⟩))

theorem map_text_constructorParameters (schema : Schema) (variant : Variant) :
    (constructorParameters schema variant).map (·.text) = parameters schema variant := by
  have demanded (field : Field) :
      ConstructorParameter.text ⟨field, false⟩ = field.declaration := by
    simp [ConstructorParameter.text, Field.declaration, Text.cat]
  have optional (field : Field) :
      ConstructorParameter.text ⟨field, true⟩ =
        .cat [field.declaration, " = ", defaultValue field.type] := by
    simp [ConstructorParameter.text, Field.declaration, defaultValue, Text.cat]
  simp [constructorParameters, parameters, demanded, optional, Function.comp_def]

theorem map_field_constructorParameters (schema : Schema) (variant : Variant) :
    (constructorParameters schema variant).map (·.field) = assignedFields schema variant := by
  simp [constructorParameters, assignedFields, Function.comp_def]

theorem perm_assignedFields (schema : Schema) (variant : Variant) :
    (assignedFields schema variant).Perm (schema.sharedFields ++ variant.fields) := by
  rw [assignedFields, Schema.sharedFields, List.append_assoc, List.append_assoc]
  exact List.perm_append_comm.append_left schema.baseFields

/-- No demanded parameter follows an optional one. -/
theorem pairwise_constructorParameters (schema : Schema) (variant : Variant) :
    (constructorParameters schema variant).Pairwise fun earlier later =>
      earlier.isOptional = true → later.isOptional = true := by
  have demanded (fields : List Field) :
      ∀ parameter ∈ fields.map (ConstructorParameter.mk · false),
        parameter.isOptional ≠ true := by
    intro parameter member
    rcases List.mem_map.mp member with ⟨field, -, rfl⟩
    exact Bool.false_ne_true
  have sorted (fields : List Field) (isOptional : Bool) :
      (fields.map (ConstructorParameter.mk · isOptional)).Pairwise fun earlier later =>
        earlier.isOptional = true → later.isOptional = true :=
    List.pairwise_map.mpr (List.pairwise_of_forall fun _ _ optional => optional)
  rw [constructorParameters, List.pairwise_append, List.pairwise_append]
  refine ⟨sorted _ false, ⟨sorted _ false, sorted _ true, ?_⟩, ?_⟩
  · intro earlier member later _ optional
    exact absurd optional (demanded _ earlier member)
  · intro earlier member later _ optional
    exact absurd optional (demanded _ earlier member)

/-! ## Lines that declare fields -/

section

variable {start line : Text}

theorem fieldIn?_eq_none
    (notBetween : Text.between? start ";" line = none) :
    fieldIn? start line = none := by
  rw [fieldIn?, notBetween]
  rfl

theorem fieldIn?_declaration
    (start : Text)
    {field : Field}
    (worded : field.IsWorded) :
    fieldIn? start (.cat [start, field.declaration, ";"]) = some field := by
  have shape :
      Text.cat [start, field.declaration, ";"] = start ++ (field.declaration ++ ";".toList) := by
    simp [Text.cat]
  rw [fieldIn?, shape, Text.between?_append]
  simp [worded.words_declaration]

theorem filterMap_fieldIn?
    (start : Text)
    {fields : List Field}
    (worded : ∀ field ∈ fields, field.IsWorded) :
    (fields.map fun field => Text.cat [start, field.declaration, ";"]).filterMap
        (fieldIn? start) =
      fields := by
  induction fields with
  | nil => rfl
  | cons field rest induction =>
      rw [List.map_cons,
        List.filterMap_cons_some (fieldIn?_declaration start (worded field List.mem_cons_self)),
        induction fun other member => worded other (List.mem_cons_of_mem field member)]

end

/-! ## The fields of the base class -/

section

variable {schema : Schema} {remark : Option Text}

theorem LiesInside.fieldIn?_eq
    {line : Text}
    (inside : LiesInside line) :
    fieldIn? "  public " line = none := by
  rcases inside with ⟨rest, rfl⟩ | ⟨rest, rfl⟩
  · rfl
  · rfl

theorem filterMap_fieldIn?_variantLines (schema : Schema) (variant : Variant) :
    (variantLines schema variant).filterMap (fieldIn? "  public ") = [] := by
  rw [variantLines_eq, List.filterMap_eq_nil_iff]
  intro line member
  rw [List.mem_cons, List.mem_cons, List.mem_append] at member
  rcases member with rfl | rfl | inner | outer
  · rfl
  · apply fieldIn?_eq_none
    apply Text.between?_eq_none_of_end rfl
    rw [getLast?_declaration]
    decide
  · exact (liesInside_variantInnerLines schema variant line inner).fieldIn?_eq
  · revert line
    decide

theorem filterMap_fieldIn?_matchLines (method : Match) (schema : Schema) :
    (method.lines schema).filterMap (fieldIn? "  public ") = [] := by
  rw [Match.lines_eq_member, List.filterMap_eq_nil_iff]
  intro line member
  rw [List.mem_cons, List.mem_append] at member
  rcases member with rfl | inner | outer
  · cases method <;> rfl
  · exact (liesInside_innerLines method schema line inner).fieldIn?_eq
  · revert line
    cases method <;> decide

theorem filterMap_fieldIn?_upperLines
    (worded : schema.IsWorded) :
    (upperLines schema).filterMap (fieldIn? "  public ") = schema.sharedFields := by
  have above :
      (headingLines none ++ (knownTypeLines schema ++ baseClassLines schema)).filterMap
          (fieldIn? "  public ") =
        [] := by
    rw [List.filterMap_eq_nil_iff]
    intro line member
    simp only [List.mem_append, baseClassLines, List.mem_cons, List.not_mem_nil,
      or_false] at member
    rcases member with heading | known | rfl | rfl | rfl | rfl | rfl | rfl
    · revert line
      decide
    · unfold knownTypeLines at known
      split at known
      · rcases List.mem_map.mp known with ⟨name, -, rfl⟩
        rfl
      · cases known
    all_goals rfl
  have gap :
      ∀ line ∈ [[]] ++ (if schema.fixedLines.isEmpty then [] else [[]]),
        fieldIn? "  public " line = none := by
    split <;> decide
  have shape :
      upperLines schema =
        (headingLines none ++ (knownTypeLines schema ++ baseClassLines schema)) ++
          ((schema.sharedFields.map fun field => Text.cat ["  public ", field.declaration, ";"]) ++
            ([[]] ++ if schema.fixedLines.isEmpty then [] else [[]])) := by
    simp [upperLines, frontLines, sharedFieldLines, Text.stack]
  rw [shape, List.filterMap_append, above, List.filterMap_append,
    filterMap_fieldIn? "  public " worded.sharedFields, List.filterMap_eq_nil_iff.mpr gap,
    List.nil_append, List.append_nil]

/-- The fields of the base class are read from the whole artifact. -/
theorem filterMap_fieldIn?_codeLines
    (worded : schema.IsWorded)
    (isRemark : ∀ text ∈ remark, IsRemark text) :
    (remark.toList ++ codeLines schema).filterMap (fieldIn? "  public ") =
      schema.sharedFields := by
  have remarked : remark.toList.filterMap (fieldIn? "  public ") = [] := by
    rw [List.filterMap_eq_nil_iff]
    intro line member
    apply fieldIn?_eq_none
    apply Text.between?_eq_none_of_start
    rintro ⟨rest, rfl⟩
    have notCode := (isRemark _ (Option.mem_toList.mp member)).notCode
    rw [isCodeLine_append _ (by decide)] at notCode
    cases notCode
  have variants :
      (schema.variants.flatMap (variantLines schema)).filterMap (fieldIn? "  public ") = [] := by
    rw [List.filterMap_eq_nil_iff]
    intro line member
    rcases List.mem_flatMap.mp member with ⟨variant, -, inVariant⟩
    exact List.filterMap_eq_nil_iff.mp (filterMap_fieldIn?_variantLines schema variant) line
      inVariant
  have closing : ["\x7d".toList].filterMap (fieldIn? "  public ") = [] := rfl
  simp only [codeLines_eq_members, List.filterMap_append, remarked, variants,
    filterMap_fieldIn?_upperLines worded, filterMap_fieldIn?_matchLines, closing,
    List.nil_append, List.append_nil]

end

/-! ## The class of a variant -/

section

variable {β : Type} {reader : Text → Option β}

/-- What is read from a class is read from its fields, its constructor and its assignments. -/
theorem filterMap_class
    (schema : Schema)
    (variant : Variant)
    (opening : reader (declaration schema.name variant.name) = none)
    (closing : reader "    \x7d" = none) :
    (declaration schema.name variant.name :: variantInnerLines schema variant).filterMap
        reader =
      (variant.fields.map fun field =>
          Text.cat ["    public ", field.declaration, ";"]).filterMap reader ++
        ((reader (constructorLine schema variant)).toList ++
          ((assignedFields schema variant).map fun field =>
            Text.cat ["      this.", field.name, " = ", field.name, ";"]).filterMap reader) := by
  have constructor :
      [constructorLine schema variant].filterMap reader =
        (reader (constructorLine schema variant)).toList := by
    cases read : reader (constructorLine schema variant) with
    | none => rw [List.filterMap_cons_none read, List.filterMap_nil, Option.toList_none]
    | some found => rw [List.filterMap_cons_some read, List.filterMap_nil, Option.toList_some]
  rw [List.filterMap_cons_none opening, variantInnerLines]
  simp only [Text.stack, List.flatten_cons, List.flatten_nil, List.append_nil,
    List.filterMap_append, constructor, List.filterMap_cons_none closing, List.filterMap_nil]

end

section

variable {schema : Schema} {variant : Variant}

/-- The class of a variant declares the fields of the variant. -/
theorem filterMap_fieldIn?_class
    (worded : variant.IsWorded) :
    (declaration schema.name variant.name :: variantInnerLines schema variant).filterMap
        (fieldIn? "    public ") =
      variant.fields := by
  have constructor : fieldIn? "    public " (constructorLine schema variant) = none := by
    apply fieldIn?_eq_none
    apply Text.between?_eq_none_of_end rfl
    rw [getLast?_constructorLine]
    decide
  rw [filterMap_class schema variant rfl rfl, filterMap_fieldIn? "    public " worded.fields,
    constructor, filterMap_map_eq_nil fun field => rfl]
  exact List.append_nil _

/-- The class of a variant has one constructor. -/
theorem filterMap_constructorIn?_class :
    (declaration schema.name variant.name :: variantInnerLines schema variant).filterMap
        constructorIn? =
      [.cat [variant.name, "(", .joinWith ", " (parameters schema variant)]] := by
  have constructor :
      constructorIn? (constructorLine schema variant) =
        some (.cat [variant.name, "(", .joinWith ", " (parameters schema variant)]) := by
    rw [constructorIn?, Text.between?_eq_some_iff]
    simp [constructorLine, Text.cat]
  have fields :
      ∀ field : Field,
        constructorIn? (.cat ["    public ", field.declaration, ";"]) = none := by
    intro field
    apply Text.between?_eq_none_of_end rfl
    rw [Text.getLast?_cat_ending rfl]
    decide
  rw [filterMap_class schema variant rfl rfl, filterMap_map_eq_nil fields, constructor,
    filterMap_map_eq_nil fun field => rfl]
  rfl

theorem assignmentIn?_line
    {name : Text}
    (isWord : Text.IsWord name) :
    assignmentIn? (.cat ["      this.", name, " = ", name, ";"]) = some ⟨name, name⟩ := by
  have shape :
      Text.cat ["      this.", name, " = ", name, ";"] =
        "      this.".toList ++ ((name ++ (" = ".toList ++ name)) ++ ";".toList) := by
    simp [Text.cat]
  have parts :
      Text.splitAt? " = " (name ++ (" = ".toList ++ name)) = some (name, name) :=
    Text.splitAt?_of_word isWord (by decide) name
  rw [assignmentIn?, shape, Text.between?_append]
  simp only [Option.bind_eq_bind, Option.bind_some, parts]
  rfl

/-- The constructor sets its parameters' fields, and its class has no other assignments. -/
theorem filterMap_assignmentIn?_class
    (worded : schema.IsWorded)
    (variantWorded : variant.IsWorded) :
    (declaration schema.name variant.name :: variantInnerLines schema variant).filterMap
        assignmentIn? =
      (assignedFields schema variant).map fun field => ⟨field.name, field.name⟩ := by
  have constructor : assignmentIn? (constructorLine schema variant) = none := rfl
  have assignments :
      ((assignedFields schema variant).map fun field =>
          Text.cat ["      this.", field.name, " = ", field.name, ";"]).filterMap assignmentIn? =
        (assignedFields schema variant).map fun field => ⟨field.name, field.name⟩ := by
    rw [List.filterMap_map, ← List.filterMap_eq_map]
    apply List.filterMap_congr
    intro field member
    exact assignmentIn?_line (each_assignedFields worded variantWorded field member).name
  rw [filterMap_class schema variant rfl rfl, filterMap_map_eq_nil fun field => rfl,
    constructor, assignments]
  rfl

end

/--
The class of every variant declares the fields of the variant and has one constructor.
Its parameters are the demanded shared fields, the fields of the variant and the
optional shared fields, which alone have a default and come last.  It sets the field of
each parameter, in their order: each field of the base class and of the variant, once.
-/
theorem constructors_set_fields
    {document : List Text}
    {schema : Schema}
    {diagnostics : List Diagnostic}
    (completed : Reading.ofLines document = .completed schema diagnostics)
    (settings : Settings)
    {source : Option Text}
    (singleLine : ∀ name ∈ source, Text.BreakFree name) :
    let code := remainingLines schema (Generator.render settings source schema)
    let classes := members opensClass code
    let sharedFields := code.filterMap (fieldIn? "  public ")
    classes.length = schema.variants.length ∧
      sharedFields = schema.sharedFields ∧
      ∀ (index : Nat) (variant : Variant),
        schema.variants[index]? = some variant →
          let parameters := constructorParameters schema variant
          ∃ lines : List Text,
            classes[index]? = some lines ∧
              lines.head? = some (declaration schema.name variant.name) ∧
              lines.filterMap (fieldIn? "    public ") = variant.fields ∧
              lines.filterMap constructorIn? =
                [.cat [variant.name, "(", .joinWith ", " (parameters.map (·.text))]] ∧
              (parameters.Pairwise fun earlier later =>
                earlier.isOptional = true → later.isOptional = true) ∧
              (lines.filterMap assignmentIn? =
                parameters.map fun parameter =>
                  ⟨parameter.field.name, parameter.field.name⟩) ∧
              (parameters.map (·.field.name)).Perm
                (sharedFields.map (·.name) ++
                  (lines.filterMap (fieldIn? "    public ")).map (·.name)) := by
  intro code classes sharedFields
  have worded := Reading.isWorded_of_completed completed
  have isRemark := isRemark_of_mem_remark settings singleLine
  have isCode : code = (Generator.remark settings source).toList ++ codeLines schema :=
    remainingLines_render worded isRemark
  have areClasses :
      classes =
        schema.variants.map fun variant =>
          declaration schema.name variant.name :: variantInnerLines schema variant := by
    rw [← members_opensClass worded isRemark, ← isCode]
  have areShared : sharedFields = schema.sharedFields := by
    rw [← filterMap_fieldIn?_codeLines worded isRemark, ← isCode]
  refine ⟨?_, areShared, ?_⟩
  · rw [areClasses, List.length_map]
  · intro index variant found parameters
    have variantWorded := worded.variants variant (List.mem_of_getElem? found)
    have fields := map_field_constructorParameters schema variant
    refine ⟨declaration schema.name variant.name :: variantInnerLines schema variant,
      ?_, rfl, filterMap_fieldIn?_class variantWorded, ?_, ?_, ?_, ?_⟩
    · rw [areClasses, List.getElem?_map, found]
      rfl
    · rw [map_text_constructorParameters]
      exact filterMap_constructorIn?_class
    · exact pairwise_constructorParameters schema variant
    · rw [filterMap_assignmentIn?_class worded variantWorded, ← fields, List.map_map]
      rfl
    · have named :
          parameters.map (·.field.name) = (assignedFields schema variant).map (·.name) := by
        rw [← fields, List.map_map]
        rfl
      rw [named, areShared, filterMap_fieldIn?_class variantWorded, ← List.map_append]
      exact (perm_assignedFields schema variant).map (·.name)

/-- A document whose fields hold commas, parentheses and signs of equality. -/
def punctuatedDocument : List Text :=
  ["Union \x7b", "%Func<(int)> f=g", "List<int,int> a,b", "A( \x7b", "int, x)", "\x7d", "\x7d"]

/-- The schema of the document. -/
def punctuatedSchema : Schema where
  name := "Union"
  baseFields := [⟨"List<int,int>", "a,b"⟩]
  defaultFields := [⟨"Func<(int)>", "f=g"⟩]
  variants := [⟨"A(", [⟨"int,", "x)"⟩]⟩]

/-- The optional field is declared first, and it is the last parameter and the last to be set. -/
theorem constructor_punctuatedSchema :
    (∃ diagnostics,
        Reading.ofLines punctuatedDocument = .completed punctuatedSchema diagnostics) ∧
      ∃ lines : List Text,
        (members opensClass
            (remainingLines punctuatedSchema (Generator.render {} none punctuatedSchema)))[0]? =
          some lines ∧
          lines.filterMap constructorIn? =
            ["A((List<int,int> a,b, int, x), Func<(int)> f=g = default(Func<(int)>)"] ∧
          lines.filterMap assignmentIn? = [⟨"a,b", "a,b"⟩, ⟨"x)", "x)"⟩, ⟨"f=g", "f=g"⟩] := by
  have completed :
      Reading.ofLines punctuatedDocument =
        .completed punctuatedSchema (Reading.ofLines punctuatedDocument).diagnostics := by
    decide +kernel
  have singleLine : ∀ name ∈ (none : Option Text), Text.BreakFree name := by
    decide
  rcases constructors_set_fields completed {} singleLine with ⟨-, -, classes⟩
  rcases classes 0 ⟨"A(", [⟨"int,", "x)"⟩]⟩ rfl with
    ⟨lines, found, -, -, constructor, -, assigned, -⟩
  refine ⟨⟨_, completed⟩, lines, found, constructor.trans ?_, assigned.trans ?_⟩
  · decide +kernel
  · decide +kernel

end TaggedUnion.Artifact
