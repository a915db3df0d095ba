import TaggedUnion.Proofs.Artifact.Checks
import TaggedUnion.Proofs.Document.Vocabulary

/-!
# The code lines of an artifact

Without its remark and its fixed region, an artifact consists of code lines.
Apart from the declarations of variants these are ordinary: free of breaks, no
comments, and not mistaken for a declaration.  The code lines declare exactly
the variants of the schema, in their order.
-/

namespace TaggedUnion

namespace Text

theorem count_space_eq_zero {word : Text} (isWord : IsWord word) : word.count ' ' = 0 := by
  rw [List.count_eq_zero]
  intro member
  exact absurd (isWord.blankFree ' ' member) (by decide)

theorem trimStart_append
    {start : Text}
    (visible : trimStart start ≠ [])
    (rest : Text) :
    trimStart (start ++ rest) = trimStart start ++ rest := by
  rw [trimStart, trimStart, List.dropWhile_append, if_neg]
  simpa [trimStart] using visible

end Text

namespace Artifact

/-! ## Ordinary lines -/

/-- A line of code that declares no variant. -/
structure IsOrdinary (line : Text) : Prop where
  breakFree : Text.BreakFree line
  otherStart : ¬ declarationStart <+: line
  isCode : isCodeLine line = true

instance (line : Text) : Decidable (IsOrdinary line) :=
  decidable_of_iff
    (Text.BreakFree line ∧ ¬ declarationStart <+: line ∧ isCodeLine line = true)
    ⟨fun ⟨breakFree, otherStart, isCode⟩ => ⟨breakFree, otherStart, isCode⟩,
      fun ordinary => ⟨ordinary.breakFree, ordinary.otherStart, ordinary.isCode⟩⟩

/--
Whether a line is ordinary by its start: the start differs from that of a
declaration, and its first visible character begins no comment.
-/
structure StartsOrdinary (start : Text) : Prop where
  breakFree : Text.BreakFree start
  notLonger : ¬ declarationStart <+: start
  notShorter : ¬ start <+: declarationStart
  visible : (Text.trimStart start).head?.any (· ≠ '/') = true

instance (start : Text) : Decidable (StartsOrdinary start) :=
  decidable_of_iff
    (Text.BreakFree start ∧ ¬ declarationStart <+: start ∧ ¬ start <+: declarationStart ∧
      (Text.trimStart start).head?.any (· ≠ '/') = true)
    ⟨fun ⟨breakFree, notLonger, notShorter, visible⟩ =>
        ⟨breakFree, notLonger, notShorter, visible⟩,
      fun starts =>
        ⟨starts.breakFree, starts.notLonger, starts.notShorter, starts.visible⟩⟩

theorem isCodeLine_append
    (start : Text)
    (visible : (Text.trimStart start).head?.any (· ≠ '/') = true)
    (rest : Text) :
    isCodeLine (start ++ rest) = true := by
  obtain ⟨character, head, different⟩ := (Option.any_eq_true _ _).mp visible
  have noSlash : character ≠ '/' := by simpa using different
  obtain ⟨more, trimmed⟩ := List.head?_eq_some_iff.mp head
  rw [isCodeLine, Text.trimStart_append (by simp [trimmed]), trimmed]
  simp [Text.startsWith, List.isPrefixOf, Ne.symm noSlash]

/-- What a line of code begins with is no comment. -/
theorem isCodeLine_front
    {front line : Text}
    (isFront : front <+: line)
    (isCode : isCodeLine line = true) :
    isCodeLine front = true := by
  rcases isFront with ⟨rest, rfl⟩
  rw [isCodeLine, Bool.not_eq_true', ← Bool.not_eq_true, Text.startsWith,
    List.isPrefixOf_iff_prefix] at isCode ⊢
  intro comment
  have visible : Text.trimStart front ≠ [] := by
    intro empty
    rw [empty] at comment
    exact absurd comment (by decide)
  rw [Text.trimStart_append visible] at isCode
  exact isCode (comment.trans (List.prefix_append _ rest))

theorem StartsOrdinary.isOrdinary
    {start : Text}
    (starts : StartsOrdinary start)
    {pieces : List Text}
    (free : Text.BreakFree (.cat pieces)) :
    IsOrdinary (.cat (start :: pieces)) where
  breakFree := (Text.breakFree_cat_cons start pieces).mpr ⟨starts.breakFree, free⟩
  otherStart := by
    intro declares
    have begins : start <+: Text.cat (start :: pieces) := List.prefix_append _ _
    rcases List.prefix_or_prefix_of_prefix declares begins with longer | shorter
    · exact starts.notLonger longer
    · exact starts.notShorter shorter
  isCode := isCodeLine_append start starts.visible (.cat pieces)

/-- Every line that a group holds is ordinary. -/
def AllOrdinary (group : List Text) : Prop :=
  ∀ line ∈ group, IsOrdinary line

theorem allOrdinary_nil : AllOrdinary [] := by
  simp [AllOrdinary]

@[simp]
theorem allOrdinary_cons (line : Text) (rest : List Text) :
    AllOrdinary (line :: rest) ↔ IsOrdinary line ∧ AllOrdinary rest := by
  simp [AllOrdinary]

@[simp]
theorem allOrdinary_append (first second : List Text) :
    AllOrdinary (first ++ second) ↔ AllOrdinary first ∧ AllOrdinary second := by
  simp only [AllOrdinary, List.mem_append]
  constructor
  · intro ordinary
    exact ⟨fun line member => ordinary line (Or.inl member),
      fun line member => ordinary line (Or.inr member)⟩
  · rintro ⟨firstOrdinary, secondOrdinary⟩ line (member | member)
    · exact firstOrdinary line member
    · exact secondOrdinary line member

theorem allOrdinary_map
    {α : Type}
    {elements : List α}
    {line : α → Text}
    (ordinary : ∀ element ∈ elements, IsOrdinary (line element)) :
    AllOrdinary (elements.map line) := by
  intro text member
  obtain ⟨element, elementMember, rfl⟩ := List.mem_map.mp member
  exact ordinary element elementMember

/-- Ordinary lines declare no variant. -/
theorem AllOrdinary.filterMap_declaredBy?
    {group : List Text}
    (ordinary : AllOrdinary group)
    (unionName : Text) :
    group.filterMap (declaredBy? unionName) = [] := by
  rw [List.filterMap_eq_nil_iff]
  intro line member
  exact declaredBy?_of_not_start unionName (ordinary line member).otherStart

/-! ## The lines of the base class -/

theorem declaration_of_closed
    {property : Text → Prop}
    (closed : Text.IsClosed property)
    (ofSpace : property " ".toList)
    {field : Field}
    (each : field.Each property) :
    property field.declaration := by
  apply closed.cat
  simp only [List.mem_cons, List.not_mem_nil, or_false, forall_eq_or_imp, forall_eq]
  exact ⟨each.type, ofSpace, each.name⟩

theorem breakFree_declaration_of_field
    {field : Field}
    (worded : field.IsWorded) :
    Text.BreakFree field.declaration :=
  declaration_of_closed Text.isClosed_breakFree (by decide) (worded.imp (·.breakFree))

theorem allOrdinary_knownTypeLines
    {schema : Schema}
    (worded : schema.IsWorded) :
    AllOrdinary (knownTypeLines schema) := by
  unfold knownTypeLines
  split
  · apply allOrdinary_map
    intro name member
    apply StartsOrdinary.isOrdinary (by decide)
    simp only [Text.breakFree_cat_cons, Text.breakFree_cat_nil, and_true]
    exact ⟨(worded.variantNames name member).breakFree, by decide⟩
  · exact allOrdinary_nil

theorem allOrdinary_baseClassLines
    {schema : Schema}
    (worded : schema.IsWorded) :
    AllOrdinary (baseClassLines schema) := by
  have classLine :
      IsOrdinary (.cat ["public abstract class ", schema.name, " \x7b"]) := by
    apply StartsOrdinary.isOrdinary (by decide)
    simp only [Text.breakFree_cat_cons, Text.breakFree_cat_nil, and_true]
    exact ⟨worded.name.breakFree, by decide⟩
  have constructorLine :
      IsOrdinary (.cat ["  private ", schema.name, "() \x7b \x7d"]) := by
    apply StartsOrdinary.isOrdinary (by decide)
    simp only [Text.breakFree_cat_cons, Text.breakFree_cat_nil, and_true]
    exact ⟨worded.name.breakFree, by decide⟩
  simp only [baseClassLines, allOrdinary_cons]
  exact ⟨by decide, classLine, constructorLine, by decide, by decide, by decide,
    allOrdinary_nil⟩

/--
The line of a shared field begins like a declaration, but a declaration holds
five spaces before its name and the line of a field only four.
-/
theorem isOrdinary_sharedFieldLine
    {field : Field}
    (worded : field.IsWorded) :
    IsOrdinary (.cat ["  public ", field.declaration, ";"]) where
  breakFree := by
    simp only [Text.breakFree_cat_cons, Text.breakFree_cat_nil, and_true]
    exact ⟨by decide, breakFree_declaration_of_field worded, by decide⟩
  otherStart := by
    intro declares
    have spaces := declares.sublist.count_le ' '
    have declared : declarationStart.count ' ' = 5 := by decide
    have held :
        (Text.cat ["  public ", field.declaration, ";"]).count ' ' = 4 := by
      simp [Text.cat, Field.declaration, Text.count_space_eq_zero worded.type,
        Text.count_space_eq_zero worded.name]
    omega
  isCode := isCodeLine_append "  public " (by decide) _

theorem allOrdinary_sharedFieldLines
    {schema : Schema}
    (worded : schema.IsWorded) :
    AllOrdinary (sharedFieldLines schema) := by
  simp only [sharedFieldLines, Text.stack, List.flatten_cons, List.flatten_nil,
    List.append_nil, allOrdinary_append, allOrdinary_cons]
  refine ⟨allOrdinary_map ?_, by decide, allOrdinary_nil⟩
  intro field member
  exact isOrdinary_sharedFieldLine (worded.sharedFields field member)

/-! ## The lines of a variant -/

theorem getLast?_constructorLine (schema : Schema) (variant : Variant) :
    (constructorLine schema variant).getLast? = some '{' := by
  simp only [constructorLine, Text.getLast?_cat_cons, Text.getLast?_cat_nil]
  rfl

theorem getLast?_declaration (unionName name : Text) :
    (declaration unionName name).getLast? = some '{' := by
  have ending : (declarationEnd unionName).getLast? = some '{' := Text.getLast?_cat_ending rfl
  rw [declaration, List.getLast?_append, List.getLast?_append, ending]
  rfl

/-- The line that ends a member of the class. -/
def memberEnd : Text :=
  "  \x7d"

/-- The lines inside the class of a variant. -/
def variantInnerLines (schema : Schema) (variant : Variant) : List Text :=
  Text.stack
    [variant.fields.map fun field => .cat ["    public ", field.declaration, ";"],
      [constructorLine schema variant],
      (assignedFields schema variant).map fun field =>
        .cat ["      this.", field.name, " = ", field.name, ";"],
      ["    \x7d"]]

theorem variantLines_eq (schema : Schema) (variant : Variant) :
    variantLines schema variant =
      "  [Serializable]".toList :: declaration schema.name variant.name ::
        (variantInnerLines schema variant ++ memberEnd :: [[]]) := by
  simp only [variantLines, variantInnerLines, Text.stack, List.flatten_cons, List.flatten_nil,
    List.append_assoc, List.cons_append, List.nil_append, List.append_nil]
  rfl

section

variable {property : Text → Prop} {schema : Schema} {variant : Variant}

theorem each_assignedFields
    (each : schema.Each property)
    (variantEach : variant.Each property) :
    ∀ field ∈ assignedFields schema variant, field.Each property := by
  intro field member
  simp only [assignedFields, List.mem_append] at member
  rcases member with (base | own) | default
  · exact each.baseFields field base
  · exact variantEach.fields field own
  · exact each.defaultFields field default

/-- A property of the words and of what stands between them is one of the parameters. -/
theorem parameters_of_closed
    (closed : Text.IsClosed property)
    (ofSpace : property " ".toList)
    (ofDefault : ∀ piece ∈ [" = ".toList, "default(".toList, ")".toList], property piece)
    (each : schema.Each property)
    (variantEach : variant.Each property) :
    ∀ parameter ∈ parameters schema variant, property parameter := by
  simp only [List.mem_cons, List.not_mem_nil, or_false, forall_eq_or_imp, forall_eq]
    at ofDefault
  obtain ⟨ofEquals, ofOpening, ofClosing⟩ := ofDefault
  intro parameter member
  rcases List.mem_append.mp member with demanded | optional
  · obtain ⟨field, fieldMember, rfl⟩ := List.mem_map.mp demanded
    rcases List.mem_append.mp fieldMember with base | own
    · exact declaration_of_closed closed ofSpace (each.baseFields field base)
    · exact declaration_of_closed closed ofSpace (variantEach.fields field own)
  · obtain ⟨field, fieldMember, rfl⟩ := List.mem_map.mp optional
    have fieldEach := each.defaultFields field fieldMember
    have ofValue : property (defaultValue field.type) := by
      apply closed.cat
      simp only [List.mem_cons, List.not_mem_nil, or_false, forall_eq_or_imp, forall_eq]
      exact ⟨ofOpening, fieldEach.type, ofClosing⟩
    apply closed.cat
    simp only [List.mem_cons, List.not_mem_nil, or_false, forall_eq_or_imp, forall_eq]
    exact ⟨declaration_of_closed closed ofSpace fieldEach, ofEquals, ofValue⟩

end

theorem allOrdinary_variantInnerLines
    {schema : Schema}
    {variant : Variant}
    (worded : schema.IsWorded)
    (variantWorded : variant.IsWorded) :
    AllOrdinary (variantInnerLines schema variant) := by
  have fieldLines :
      AllOrdinary
        (variant.fields.map fun field => .cat ["    public ", field.declaration, ";"]) := by
    apply allOrdinary_map
    intro field member
    apply StartsOrdinary.isOrdinary (by decide)
    simp only [Text.breakFree_cat_cons, Text.breakFree_cat_nil, and_true]
    exact ⟨breakFree_declaration_of_field (variantWorded.fields field member), by decide⟩
  have constructor : IsOrdinary (constructorLine schema variant) := by
    apply StartsOrdinary.isOrdinary (by decide)
    simp only [Text.breakFree_cat_cons, Text.breakFree_cat_nil, and_true]
    have parametersFree :=
      parameters_of_closed Text.isClosed_breakFree (by decide) (by decide)
        (worded.imp (·.breakFree)) (variantWorded.imp (·.breakFree))
    exact ⟨variantWorded.name.breakFree, by decide,
      Text.isClosed_breakFree.joinWith (by decide) parametersFree, by decide⟩
  have assignments :
      AllOrdinary
        ((assignedFields schema variant).map fun field =>
          .cat ["      this.", field.name, " = ", field.name, ";"]) := by
    apply allOrdinary_map
    intro field member
    have nameFree := (each_assignedFields worded variantWorded field member).name.breakFree
    apply StartsOrdinary.isOrdinary (by decide)
    simp only [Text.breakFree_cat_cons, Text.breakFree_cat_nil, and_true]
    exact ⟨nameFree, by decide, nameFree, by decide⟩
  simp only [variantInnerLines, Text.stack, List.flatten_cons, List.flatten_nil,
    List.append_nil, allOrdinary_append, allOrdinary_cons]
  exact ⟨fieldLines, ⟨constructor, allOrdinary_nil⟩, assignments, by decide, allOrdinary_nil⟩

theorem allOrdinary_belowMember : AllOrdinary (memberEnd :: [[]]) := by
  rw [allOrdinary_cons, allOrdinary_cons]
  exact ⟨by decide, by decide, allOrdinary_nil⟩

/-! ## The lines of the match methods -/

theorem exists_of_mem_withCommas
    {group : List Text}
    {line : Text}
    (member : line ∈ Match.withCommas group) :
    ∃ handler ∈ group, ∃ ending ∈ ["".toList, ",".toList], line = .cat [handler, ending] := by
  fun_induction Match.withCommas group with
  | case1 => simp at member
  | case2 handler =>
      exact ⟨handler, List.mem_cons_self, [], by decide, by simpa [Text.cat] using member⟩
  | case3 handler rest _ induction =>
      rcases List.mem_cons.mp member with rfl | later
      · exact ⟨handler, List.mem_cons_self, _, by decide, rfl⟩
      · obtain ⟨found, foundMember, ending⟩ := induction later
        exact ⟨found, List.mem_cons_of_mem _ foundMember, ending⟩

theorem isOrdinary_handler
    (method : Match)
    (allowNulls : Bool)
    {name ending : Text}
    (isWord : Text.IsWord name)
    (endingFree : Text.BreakFree ending) :
    IsOrdinary (.cat [method.handler allowNulls name, ending]) := by
  have nullFree : Text.BreakFree (if allowNulls then " = null".toList else []) := by
    cases allowNulls <;> decide
  cases method with
  | result =>
      have spelled :
          Text.cat [Match.handler .result allowNulls name, ending] =
            .cat
              ["      Func<", name, ", T> ", name,
                if allowNulls then " = null".toList else [], ending] := by
        simp only [Match.handler, Match.delegate, Text.cat, List.flatten_cons,
          List.flatten_nil, List.append_nil, List.append_assoc]
        rfl
      rw [spelled]
      apply StartsOrdinary.isOrdinary (by decide)
      simp only [Text.breakFree_cat_cons, Text.breakFree_cat_nil, and_true]
      exact ⟨isWord.breakFree, by decide, isWord.breakFree, nullFree, endingFree⟩
  | action =>
      have spelled :
          Text.cat [Match.handler .action allowNulls name, ending] =
            .cat
              ["      Action<", name, "> ", name,
                if allowNulls then " = null".toList else [], ending] := by
        simp only [Match.handler, Match.delegate, Text.cat, List.flatten_cons,
          List.flatten_nil, List.append_nil, List.append_assoc]
        rfl
      rw [spelled]
      apply StartsOrdinary.isOrdinary (by decide)
      simp only [Text.breakFree_cat_cons, Text.breakFree_cat_nil, and_true]
      exact ⟨isWord.breakFree, by decide, isWord.breakFree, nullFree, endingFree⟩

theorem breakFree_binding (index : Nat) : Text.BreakFree (Match.binding index) := by
  have letterFree : Text.BreakFree ['s'] := by decide
  exact (Text.breakFree_append ['s'] _).mpr ⟨letterFree, (Text.isWord_ofNat index).breakFree⟩

theorem isOrdinary_testLine
    {name : Text}
    (isWord : Text.IsWord name)
    (index : Nat) :
    IsOrdinary (Match.testLine name index) := by
  have free :
      Text.BreakFree (.cat [" (this is ", name, " ", Match.binding index, ") \x7b"]) := by
    simp only [Text.breakFree_cat_cons, Text.breakFree_cat_nil, and_true]
    exact ⟨by decide, isWord.breakFree, by decide, breakFree_binding index, by decide⟩
  have firstStart : StartsOrdinary "    if".toList := by decide
  have laterStart : StartsOrdinary "    \x7d else if".toList := by decide
  unfold Match.testLine
  split
  · exact firstStart.isOrdinary free
  · exact laterStart.isOrdinary free

theorem isOrdinary_callLine
    (method : Match)
    {name : Text}
    (isWord : Text.IsWord name)
    (index : Nat) :
    IsOrdinary (method.callLine name index) := by
  cases method with
  | result =>
      apply StartsOrdinary.isOrdinary (by decide)
      simp only [Text.breakFree_cat_cons, Text.breakFree_cat_nil, and_true]
      exact ⟨isWord.breakFree, by decide, isWord.breakFree, by decide,
        breakFree_binding index, by decide⟩
  | action =>
      apply StartsOrdinary.isOrdinary (by decide)
      simp only [Text.breakFree_cat_cons, Text.breakFree_cat_nil, and_true]
      exact ⟨isWord.breakFree, by decide, isWord.breakFree, by decide,
        breakFree_binding index, by decide⟩

/-- The test for a variant at its index, and the call of its handler. -/
def Match.branchLines (method : Match) (entry : Text × Nat) : List Text :=
  [testLine entry.1 entry.2, method.callLine entry.1 entry.2]

theorem Match.chainLines_eq (method : Match) (names : List Text) :
    method.chainLines names =
      names.zipIdx.flatMap method.branchLines ++
        if names.isEmpty then [] else ["    \x7d".toList] := by
  simp only [chainLines, Text.stack, List.flatten_cons, List.flatten_nil, List.append_nil]
  rfl

theorem allOrdinary_chainLines
    (method : Match)
    {names : List Text}
    (worded : ∀ name ∈ names, Text.IsWord name) :
    AllOrdinary (method.chainLines names) := by
  rw [Match.chainLines_eq, allOrdinary_append]
  constructor
  · intro line member
    obtain ⟨entry, indexed, lineMember⟩ := List.mem_flatMap.mp member
    have isWord := worded entry.1 (List.fst_mem_of_mem_zipIdx indexed)
    rcases List.mem_pair.mp lineMember with rfl | rfl
    · exact isOrdinary_testLine isWord entry.2
    · exact isOrdinary_callLine method isWord entry.2
  · split
    · exact allOrdinary_nil
    · exact (allOrdinary_cons _ _).mpr ⟨by decide, allOrdinary_nil⟩

theorem Match.lines_eq (method : Match) (schema : Schema) :
    method.lines schema =
      method.headerLine ::
        (withCommas (schema.variantNames.map (method.handler schema.allowNulls)) ++
          "  ) \x7b".toList ::
            (method.chainLines schema.variantNames ++ method.footerLines)) := by
  simp only [Match.lines, Text.stack, List.flatten_cons, List.flatten_nil, List.cons_append,
    List.nil_append, List.append_nil]

theorem allOrdinary_matchLines
    (method : Match)
    {schema : Schema}
    (worded : schema.IsWorded) :
    AllOrdinary (method.lines schema) := by
  have header : IsOrdinary method.headerLine := by cases method <;> decide
  have handlers :
      AllOrdinary
        (Match.withCommas (schema.variantNames.map (method.handler schema.allowNulls))) := by
    intro line member
    obtain ⟨handler, handlerMember, ending, ends, rfl⟩ := exists_of_mem_withCommas member
    obtain ⟨name, nameMember, rfl⟩ := List.mem_map.mp handlerMember
    have endingFree : Text.BreakFree ending := by
      rcases List.mem_pair.mp ends with rfl | rfl <;> decide
    exact isOrdinary_handler method _ (worded.variantNames name nameMember) endingFree
  have footer : AllOrdinary method.footerLines := by
    cases method <;> simp only [Match.footerLines, allOrdinary_cons] <;>
      simp only [allOrdinary_nil, and_true] <;> decide
  rw [Match.lines_eq, allOrdinary_cons, allOrdinary_append, allOrdinary_cons,
    allOrdinary_append]
  exact ⟨header, handlers, by decide, allOrdinary_chainLines method worded.variantNames,
    footer⟩

/-! ## The fixed region -/

/-- The line that introduces the fixed lines. -/
def fixedMark : Text :=
  "  //fixed area"

/-- The fixed lines as they stand in an artifact, and the line that ends them. -/
def indentedLines (schema : Schema) : List Text :=
  schema.fixedLines.map (Text.cat ["  ", ·]) ++ ["  //end fixed area".toList]

theorem fixedLines_of_none
    {schema : Schema}
    (absent : schema.fixedLines.isEmpty = true) :
    fixedLines schema = [] :=
  if_pos absent

theorem fixedRegionLines_of_some
    {schema : Schema}
    (present : schema.fixedLines.isEmpty = false) :
    fixedRegionLines schema = fixedMark :: indentedLines schema := by
  rw [fixedRegionLines, present]
  rfl

theorem fixedLines_of_some
    {schema : Schema}
    (present : schema.fixedLines.isEmpty = false) :
    fixedLines schema = fixedMark :: (indentedLines schema ++ [[]]) := by
  rw [fixedLines, present, fixedRegionLines_of_some present]
  rfl

/-! ## The artifact without its remark and its fixed region -/

/-- The lines above the fixed region, without the remark. -/
def frontLines (schema : Schema) : List Text :=
  Text.stack
    [headingLines none, knownTypeLines schema, baseClassLines schema,
      sharedFieldLines schema]

/-- The lines below the fixed region and the empty line after it. -/
def backLines (schema : Schema) : List Text :=
  Text.stack
    [schema.variants.flatMap (variantLines schema), Match.lines .result schema,
      Match.lines .action schema, ["\x7d"]]

theorem lines_eq (remark : Option Text) (schema : Schema) :
    lines remark schema =
      remark.toList ++ (frontLines schema ++ (fixedLines schema ++ backLines schema)) := by
  simp [lines, frontLines, backLines, Text.stack, headingLines]

theorem allOrdinary_frontLines
    {schema : Schema}
    (worded : schema.IsWorded) :
    AllOrdinary (frontLines schema) := by
  have heading : AllOrdinary (headingLines none) := by
    simp only [headingLines, Text.stack, Option.toList_none, List.flatten_cons,
      List.flatten_nil, List.append_nil, List.nil_append, allOrdinary_cons]
    exact ⟨by decide, by decide, by decide, allOrdinary_nil⟩
  simp only [frontLines, Text.stack, List.flatten_cons, List.flatten_nil, List.append_nil,
    allOrdinary_append]
  exact ⟨heading, allOrdinary_knownTypeLines worded, allOrdinary_baseClassLines worded,
    allOrdinary_sharedFieldLines worded⟩

/-- The artifact's lines without the remark and the fixed region. -/
def codeLines (schema : Schema) : List Text :=
  Text.stack
    [frontLines schema, if schema.fixedLines.isEmpty then [] else [""], backLines schema]

theorem allOrdinary_gap (schema : Schema) :
    AllOrdinary (if schema.fixedLines.isEmpty then [] else [""]) := by
  split
  · exact allOrdinary_nil
  · exact (allOrdinary_cons _ _).mpr ⟨by decide, allOrdinary_nil⟩

/-- The lines below the variants are ordinary. -/
theorem allOrdinary_matchMethods
    {schema : Schema}
    (worded : schema.IsWorded) :
    AllOrdinary
      (Text.stack [Match.lines .result schema, Match.lines .action schema, ["\x7d"]]) := by
  simp only [Text.stack, List.flatten_cons, List.flatten_nil, List.append_nil,
    allOrdinary_append, allOrdinary_cons]
  exact ⟨allOrdinary_matchLines .result worded, allOrdinary_matchLines .action worded,
    by decide, allOrdinary_nil⟩

theorem backLines_eq (schema : Schema) :
    backLines schema =
      schema.variants.flatMap (variantLines schema) ++
        Text.stack [Match.lines .result schema, Match.lines .action schema, ["\x7d"]] := by
  simp [backLines, Text.stack]

/-- A line of an artifact's code is ordinary or declares a variant. -/
theorem isOrdinary_or_declaration
    {schema : Schema}
    (worded : schema.IsWorded)
    {line : Text}
    (member : line ∈ codeLines schema) :
    IsOrdinary line ∨ ∃ name ∈ schema.variantNames, line = declaration schema.name name := by
  simp only [codeLines, backLines_eq, Text.stack, List.flatten_cons, List.flatten_nil,
    List.append_nil, List.mem_append, List.mem_flatMap] at member
  rcases member with front | gap | ⟨variant, variantMember, inVariant⟩ | methods
  · exact Or.inl (allOrdinary_frontLines worded line front)
  · exact Or.inl (allOrdinary_gap schema line gap)
  · rw [variantLines_eq, List.mem_cons, List.mem_cons, List.mem_append] at inVariant
    rcases inVariant with rfl | rfl | inner | below
    · exact Or.inl (by decide)
    · exact Or.inr ⟨variant.name, List.mem_map_of_mem variantMember, rfl⟩
    · exact Or.inl (allOrdinary_variantInnerLines worded
        (worded.variants variant variantMember) line inner)
    · exact Or.inl (allOrdinary_belowMember line below)
  · exact Or.inl (allOrdinary_matchMethods worded line (by simpa [Text.stack] using methods))

theorem breakFree_codeLines
    {schema : Schema}
    (worded : schema.IsWorded) :
    ∀ line ∈ codeLines schema, Text.BreakFree line := by
  intro line member
  rcases isOrdinary_or_declaration worded member with ordinary | ⟨name, nameMember, rfl⟩
  · exact ordinary.breakFree
  · exact breakFree_declaration worded.name.breakFree (worded.variantNames name nameMember)

theorem isCodeLine_codeLines
    {schema : Schema}
    (worded : schema.IsWorded) :
    ∀ line ∈ codeLines schema, isCodeLine line = true := by
  intro line member
  rcases isOrdinary_or_declaration worded member with ordinary | ⟨name, -, rfl⟩
  · exact ordinary.isCode
  · exact isCodeLine_append declarationStart (by decide) _

/-- An artifact's code declares the variants of the schema, in their order. -/
theorem filterMap_declaredBy?_codeLines
    {schema : Schema}
    (worded : schema.IsWorded) :
    (codeLines schema).filterMap (declaredBy? schema.name) = schema.variantNames := by
  have ofVariant :
      ∀ variant ∈ schema.variants,
        (variantLines schema variant).filterMap (declaredBy? schema.name) =
          [variant.name] := by
    intro variant member
    have variantWorded := worded.variants variant member
    have serializable : declaredBy? schema.name "  [Serializable]".toList = none :=
      declaredBy?_of_not_start schema.name (by decide)
    rw [variantLines_eq, List.filterMap_cons_none serializable,
      List.filterMap_cons_some (declaredBy?_declaration worded.name.breakFree
        variantWorded.name), List.filterMap_append,
      (allOrdinary_variantInnerLines worded variantWorded).filterMap_declaredBy?,
      allOrdinary_belowMember.filterMap_declaredBy?, List.append_nil]
  simp only [codeLines, Text.stack, List.flatten_cons, List.flatten_nil, List.append_nil,
    List.filterMap_append, (allOrdinary_frontLines worded).filterMap_declaredBy?,
    (allOrdinary_gap schema).filterMap_declaredBy?, List.nil_append]
  rw [backLines_eq, List.filterMap_append,
    (allOrdinary_matchMethods worded).filterMap_declaredBy?, List.append_nil,
    List.filterMap_flatMap, List.flatMap_congr ofVariant, ← List.map_eq_flatMap]
  rfl

/-- The lines above the one that opens the class. -/
def aboveClassLines (schema : Schema) : List Text :=
  Text.stack [headingLines none, knownTypeLines schema, ["[Serializable]"]]

/-- The line that opens the base class. -/
def classLine (schema : Schema) : Text :=
  .cat ["public abstract class ", schema.name, " \x7b"]

/-- The code inside the base class. -/
def classBodyLines (schema : Schema) : List Text :=
  Text.stack
    [(baseClassLines schema).drop 2,
      sharedFieldLines schema,
      if schema.fixedLines.isEmpty then [] else [""],
      schema.variants.flatMap (variantLines schema),
      Match.lines .result schema,
      Match.lines .action schema]

/-- The code of the base class above its members. -/
def classFrontLines (schema : Schema) : List Text :=
  Text.stack
    [(baseClassLines schema).drop 2,
      sharedFieldLines schema,
      if schema.fixedLines.isEmpty then [] else [""]]

theorem classBodyLines_eq (schema : Schema) :
    classBodyLines schema =
      classFrontLines schema ++
        (schema.variants.flatMap (variantLines schema) ++
          (Match.lines .result schema ++ Match.lines .action schema)) := by
  simp only [classBodyLines, classFrontLines, Text.stack, List.flatten_cons,
    List.flatten_nil, List.append_assoc, List.append_nil]

/-- The code is one class, below the lines that it needs. -/
theorem codeLines_eq (schema : Schema) :
    codeLines schema =
      aboveClassLines schema ++
        classLine schema :: (classBodyLines schema ++ ["\x7d".toList]) := by
  simp only [codeLines, frontLines, backLines, baseClassLines, aboveClassLines,
    classBodyLines, classLine, Text.stack, List.flatten_cons, List.flatten_nil,
    List.append_assoc, List.cons_append, List.nil_append, List.append_nil, List.drop]

end Artifact

end TaggedUnion
