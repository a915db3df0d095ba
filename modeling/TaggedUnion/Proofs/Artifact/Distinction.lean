import TaggedUnion.Proofs.Artifact.Members
import TaggedUnion.Proofs.Artifact.Truncation

/-!
# The check tells schemas apart

An artifact of one schema is held against another schema with the same fixed
lines.  The check asks whether the class of the other schema is declared and
which variants of it are, and it searches the text for both.  No line of the code
but the one that opens the class can be taken for it, whatever the words of the
two schemas are.

So the verdict depends on the names of the two schemas, then on the names of their
variants in order, and on nothing else of the other schema.
-/

namespace TaggedUnion.Artifact

variable {schema other : Schema} {remark : Option Text}

/-! ## The class that is declared -/

/-- A line that is empty or begins with a space. -/
def IsIndented (line : Text) : Prop :=
  line.head? = none ∨ line.head? = some ' '

instance (line : Text) : Decidable (IsIndented line) :=
  inferInstanceAs (Decidable (line.head? = none ∨ line.head? = some ' '))

theorem LiesInside.isIndented
    {line : Text}
    (inside : LiesInside line) :
    IsIndented line := by
  rcases inside with ⟨rest, rfl⟩ | ⟨rest, rfl⟩ <;> exact Or.inr rfl

theorem isIndented_variantLines (schema : Schema) (variant : Variant) :
    ∀ line ∈ variantLines schema variant, IsIndented line := by
  have outer : ∀ line ∈ [memberEnd, []], IsIndented line := by decide
  intro line member
  rw [variantLines_eq, List.mem_cons, List.mem_cons, List.mem_append] at member
  rcases member with rfl | rfl | inner | ending
  · exact Or.inr rfl
  · exact Or.inr rfl
  · exact (liesInside_variantInnerLines schema variant line inner).isIndented
  · exact outer line ending

theorem isIndented_matchLines (method : Match) (schema : Schema) :
    ∀ line ∈ method.lines schema, IsIndented line := by
  have header : IsIndented method.headerLine := by cases method <;> decide
  have outer : ∀ line ∈ memberEnd :: method.gapLines, IsIndented line := by
    cases method <;> decide
  intro line member
  rw [Match.lines_eq_member, List.mem_cons, List.mem_append] at member
  rcases member with rfl | inner | ending
  · exact header
  · exact (liesInside_innerLines method schema line inner).isIndented
  · exact outer line ending

/-- The lines inside the class are empty or begin with a space. -/
theorem isIndented_classBodyLines (schema : Schema) :
    ∀ line ∈ classBodyLines schema, IsIndented line := by
  intro line member
  simp only [classBodyLines, baseClassLines, sharedFieldLines, Text.stack, List.drop,
    List.flatten_cons, List.flatten_nil, List.append_nil, List.mem_append, List.mem_cons,
    List.not_mem_nil, or_false, List.mem_map, List.mem_flatMap] at member
  rcases member with (rfl | rfl | rfl | rfl) | (⟨field, -, rfl⟩ | rfl) | gap |
    ⟨variant, -, inVariant⟩ | inResult | inAction
  · exact Or.inr rfl
  · exact Or.inl rfl
  · exact Or.inr rfl
  · exact Or.inl rfl
  · exact Or.inr rfl
  · exact Or.inl rfl
  · split at gap
    · cases gap
    · rw [List.mem_singleton.mp gap]
      exact Or.inl rfl
  · exact isIndented_variantLines schema variant line inVariant
  · exact isIndented_matchLines .result schema line inResult
  · exact isIndented_matchLines .action schema line inAction

/-- Only the line that opens the class can open the class of another schema. -/
theorem classLine_mem_iff
    (isRemark : ∀ text ∈ remark, IsRemark text) :
    classLine other ∈ remark.toList ++ codeLines schema ↔ other.name = schema.name := by
  have shape :
      remark.toList ++ codeLines schema =
        (remark.toList ++ aboveClassLines schema) ++
          classLine schema :: (classBodyLines schema ++ ["\x7d".toList]) := by
    simp [codeLines_eq_openingLines, openingLines]
  have starts : (classLine other).head? = some 'p' := rfl
  rw [shape]
  constructor
  · intro member
    rcases List.mem_append.mp member with above | below
    · exact (classLine_not_mem other isRemark above).elim
    · rcases List.mem_cons.mp below with same | inside
      · simpa [classLine, Text.cat] using same
      · rcases List.mem_append.mp inside with body | last
        · rcases isIndented_classBodyLines schema _ body with empty | indented
          · cases starts.symm.trans empty
          · cases starts.symm.trans indented
        · rw [List.mem_singleton.mp last] at starts
          cases starts
  · intro same
    have sameLine : classLine other = classLine schema := by rw [classLine, classLine, same]
    rw [sameLine]
    exact List.mem_append_right _ List.mem_cons_self

theorem breakFree_classLine
    (isWord : Text.IsWord schema.name) :
    Text.BreakFree (classLine schema) := by
  simp only [classLine, Text.breakFree_cat_cons, Text.breakFree_cat_nil, and_true]
  exact ⟨by decide, isWord.breakFree, by decide⟩

/-- The check finds the class of another schema in an artifact only if the names are the same. -/
theorem hasPart_baseClassDeclaration_iff
    (worded : schema.IsWorded)
    (otherWord : Text.IsWord other.name)
    (isRemark : ∀ text ∈ remark, IsRemark text) :
    Text.hasPart (baseClassDeclaration other.name)
        (Text.unlines (remark.toList ++ codeLines schema)) = true ↔
      other.name = schema.name := by
  constructor
  · intro declares
    rw [Text.hasPart_iff, baseClassDeclaration_eq,
      ← List.append_nil (Text.unlines (remark.toList ++ codeLines schema))] at declares
    apply (classLine_mem_iff isRemark).mp
    apply Text.mem_of_infix_unlines _ _ _ declares
    · exact (breakFree_classLine otherWord).newline_notMem
    · exact fun line member => (breakFree_remarked worded isRemark line member).newline_notMem
    · exact List.not_mem_nil
  · intro same
    rw [same]
    exact hasPart_baseClassDeclaration remark schema

/-! ## The verdict on the artifact of another schema -/

/-- With the same fixed lines the check cuts out the same region. -/
theorem check_render_of_sameFixed
    (worded : schema.IsWorded)
    (sameFixed : other.fixedLines = schema.fixedLines)
    (isRemark : ∀ text ∈ remark, IsRemark text) :
    check other (render remark schema) =
      checkCode other (Text.unlines (remark.toList ++ codeLines schema)) := by
  have sameRegion : fixedRegion other = fixedRegion schema := by
    rw [fixedRegion, fixedRegion, fixedRegionLines, fixedRegionLines, sameFixed]
  rcases splitAt?_render worded isRemark with ⟨before, after, found, code, -⟩
  simp only [check, sameRegion, found, code]

theorem checkCode_of_otherName
    (worded : schema.IsWorded)
    (otherWord : Text.IsWord other.name)
    (isRemark : ∀ text ∈ remark, IsRemark text)
    (otherName : other.name ≠ schema.name) :
    checkCode other (Text.unlines (remark.toList ++ codeLines schema)) =
      .error (.missingBaseClass other.name) := by
  have undeclared :
      Text.hasPart (baseClassDeclaration other.name)
        (Text.unlines (remark.toList ++ codeLines schema)) = false := by
    rw [← Bool.not_eq_true, hasPart_baseClassDeclaration_iff worded otherWord isRemark]
    exact otherName
  simp only [checkCode, undeclared, Bool.not_false, if_true]

/-- For a schema of the same name, the variants decide whether the braces are looked at. -/
theorem checkCode_of_sameName
    (worded : schema.IsWorded)
    (isRemark : ∀ text ∈ remark, IsRemark text)
    (sameName : other.name = schema.name) :
    checkCode other (Text.unlines (remark.toList ++ codeLines schema)) =
      if other.variantNames = schema.variantNames then
        checkCode schema (Text.unlines (remark.toList ++ codeLines schema))
      else
        .error (.wrongVariants schema.variantNames other.variantNames) := by
  rw [checkCode_codeLines worded isRemark]
  simp only [checkCode, sameName, hasPart_baseClassDeclaration,
    declaredVariants_codeLines worded isRemark, Bool.not_true, Bool.false_eq_true, if_false]
  by_cases sameVariants : other.variantNames = schema.variantNames
  · rw [if_pos sameVariants, if_neg (not_not_intro sameVariants.symm)]
    cases isBalanced (Text.unlines (remark.toList ++ codeLines schema)) <;> rfl
  · rw [if_neg sameVariants, if_pos (Ne.symm sameVariants)]

/--
The artifact of one document is held against the schema of another document with
the same fixed lines.  It is accepted only if the schemas have the same name and
their variants the same names in the same order.  Otherwise the fault tells what
differs, the name before the variants, with the variants of the artifact as the
declared ones.  If neither differs, the verdict is the one on the artifact's own
schema.
-/
theorem check_render_of_otherSchema
    {document otherDocument : List Text}
    {diagnostics otherDiagnostics : List Diagnostic}
    (completed : Reading.ofLines document = .completed schema diagnostics)
    (otherCompleted : Reading.ofLines otherDocument = .completed other otherDiagnostics)
    (sameFixed : other.fixedLines = schema.fixedLines)
    (settings : Settings)
    {source : Option Text}
    (singleLine : ∀ name ∈ source, Text.BreakFree name) :
    let artifact := Generator.render settings source schema
    (check other artifact = .ok () →
        other.name = schema.name ∧ other.variantNames = schema.variantNames) ∧
      (other.name ≠ schema.name →
        check other artifact = .error (.missingBaseClass other.name) ∧
          (Fault.missingBaseClass other.name).message =
            .cat ["Artifact does not declare the abstract class ", other.name]) ∧
      (other.name = schema.name →
        other.variantNames ≠ schema.variantNames →
          check other artifact =
              .error (.wrongVariants schema.variantNames other.variantNames) ∧
            (Fault.wrongVariants schema.variantNames other.variantNames).message =
              .cat
                ["Artifact declares variants ", Text.quoteList schema.variantNames,
                  ", expected ", Text.quoteList other.variantNames]) ∧
      (other.name = schema.name →
        other.variantNames = schema.variantNames →
          check other artifact = check schema artifact) := by
  intro artifact
  have worded := Reading.isWorded_of_completed completed
  have otherWord := (Reading.isWorded_of_completed otherCompleted).name
  have isRemark := isRemark_of_mem_remark settings singleLine
  have judged : check other artifact = checkCode other _ :=
    check_render_of_sameFixed worded sameFixed isRemark
  have ownJudged : check schema artifact = checkCode schema _ := check_render worded isRemark
  have otherName (different : other.name ≠ schema.name) :
      check other artifact = .error (.missingBaseClass other.name) :=
    judged.trans (checkCode_of_otherName worded otherWord isRemark different)
  have sameName (same : other.name = schema.name) :=
    judged.trans (checkCode_of_sameName worded isRemark same)
  refine ⟨?_, ?_, ?_, ?_⟩
  · intro accepted
    by_cases same : other.name = schema.name
    · rw [sameName same] at accepted
      refine ⟨same, ?_⟩
      by_contra different
      rw [if_neg different] at accepted
      cases accepted
    · rw [otherName same] at accepted
      cases accepted
  · intro different
    exact ⟨otherName different, rfl⟩
  · intro same different
    refine ⟨?_, rfl⟩
    rw [sameName same, if_neg different]
  · intro same sameVariants
    rw [sameName same, if_pos sameVariants, ownJudged]

/-- A document whose fixed line declares a class. -/
def declaringDocument (name : Text) (variants : List Text) : List Text :=
  Text.stack
    [[.cat [name, " \x7b"], "&public abstract class Sxx \x7b\x7b"],
      variants.flatMap fun variant => [.cat [variant, " \x7b"], "\x7d"],
      ["\x7d"]]

/-- The schema of the document. -/
def declaringSchema (name : Text) (variants : List Text) : Schema where
  name := name
  fixedLines := ["public abstract class Sxx \x7b\x7b"]
  variants := variants.map fun variant => ⟨variant, []⟩

theorem name_declaringSchema (name : Text) (variants : List Text) :
    (declaringSchema name variants).name = name :=
  rfl

theorem fixedLines_declaringSchema (name : Text) (variants : List Text) :
    (declaringSchema name variants).fixedLines = ["public abstract class Sxx \x7b\x7b".toList] :=
  rfl

theorem variantNames_declaringSchema (name : Text) (variants : List Text) :
    (declaringSchema name variants).variantNames = variants := by
  rw [Schema.variantNames, declaringSchema, List.map_map]
  exact List.map_id variants

/-- A name that would fit as a pattern and an exchange of variants are both noticed. -/
theorem check_render_declaringSchema :
    let artifact := Generator.render {} none (declaringSchema "S.*" [":", "class"])
    ((∃ diagnostics,
          Reading.ofLines (declaringDocument "S.*" [":", "class"]) =
            .completed (declaringSchema "S.*" [":", "class"]) diagnostics) ∧
        (∃ diagnostics,
          Reading.ofLines (declaringDocument "Sxx" [":", "class"]) =
            .completed (declaringSchema "Sxx" [":", "class"]) diagnostics) ∧
        ∃ diagnostics,
          Reading.ofLines (declaringDocument "S.*" ["class", ":"]) =
            .completed (declaringSchema "S.*" ["class", ":"]) diagnostics) ∧
      check (declaringSchema "Sxx" [":", "class"]) artifact =
        .error (.missingBaseClass "Sxx") ∧
      check (declaringSchema "S.*" ["class", ":"]) artifact =
        .error (.wrongVariants [":", "class"] ["class", ":"]) := by
  intro artifact
  have completed :
      Reading.ofLines (declaringDocument "S.*" [":", "class"]) =
        .completed (declaringSchema "S.*" [":", "class"])
          (Reading.ofLines (declaringDocument "S.*" [":", "class"])).diagnostics := by
    decide +kernel
  have renamed :
      Reading.ofLines (declaringDocument "Sxx" [":", "class"]) =
        .completed (declaringSchema "Sxx" [":", "class"])
          (Reading.ofLines (declaringDocument "Sxx" [":", "class"])).diagnostics := by
    decide +kernel
  have exchanged :
      Reading.ofLines (declaringDocument "S.*" ["class", ":"]) =
        .completed (declaringSchema "S.*" ["class", ":"])
          (Reading.ofLines (declaringDocument "S.*" ["class", ":"])).diagnostics := by
    decide +kernel
  have singleLine : ∀ name ∈ (none : Option Text), Text.BreakFree name := by
    decide
  have sameFixed (name : Text) (variants : List Text) :
      (declaringSchema name variants).fixedLines =
        (declaringSchema "S.*" [":", "class"]).fixedLines := by
    rw [fixedLines_declaringSchema, fixedLines_declaringSchema]
  have onRenamed := check_render_of_otherSchema completed renamed (sameFixed _ _) {} singleLine
  have onExchanged :=
    check_render_of_otherSchema completed exchanged (sameFixed _ _) {} singleLine
  rw [name_declaringSchema, name_declaringSchema] at onRenamed onExchanged
  rw [variantNames_declaringSchema, variantNames_declaringSchema] at onExchanged
  exact ⟨⟨⟨_, completed⟩, ⟨_, renamed⟩, ⟨_, exchanged⟩⟩,
    (onRenamed.2.1 (by decide)).1, (onExchanged.2.2.1 rfl (by decide)).1⟩

end TaggedUnion.Artifact
