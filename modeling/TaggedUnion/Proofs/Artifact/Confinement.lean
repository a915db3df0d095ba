import TaggedUnion.Proofs.Artifact.Acceptance

/-!
# Fixed lines stay out of the check

The fixed lines of a schema are copied into its artifact as they are, so they
can hold the marks of the fixed region, declarations of classes and braces of
any number.  None of this reaches the check: it ends on every artifact as it
ends on the artifact of the same schema without fixed lines, which it judges by
its braces alone.

What tells the two apart once the region is cut out is one empty line.
-/

namespace TaggedUnion

/-- The schema with the given fixed lines in place of its own. -/
def Schema.withFixedLines (schema : Schema) (fixedLines : List Text) : Schema :=
  { schema with fixedLines }

/-- The words of a schema are the same whatever its fixed lines are. -/
theorem Schema.Each.withFixedLines
    {property : Text → Prop}
    {schema : Schema}
    (each : schema.Each property)
    (fixedLines : List Text) :
    (schema.withFixedLines fixedLines).Each property :=
  ⟨each.name, each.baseFields, each.defaultFields, each.variants⟩

namespace Artifact

theorem codeLines_withFixedLines
    (schema : Schema)
    (fixedLines : List Text) :
    codeLines (schema.withFixedLines fixedLines) =
      frontLines schema ++
        ((if fixedLines.isEmpty then [] else [[]]) ++ backLines schema) := by
  simp only [codeLines, Text.stack, List.flatten_cons, List.flatten_nil, List.append_nil]
  rfl

/-- An empty line between others does not change whether they are balanced. -/
theorem balancedFrom_append_empty
    (above below : List Text) :
    balancedFrom 0 (above ++ [] :: below) = balancedFrom 0 (above ++ below) := by
  have even : braceBalance [] = 0 := rfl
  have lowered := lowest_le_zero below
  rw [Bool.eq_iff_iff, balancedFrom_iff (Int.le_refl 0), balancedFrom_iff (Int.le_refl 0),
    lowest_append, lowest_append, net_append, net_append, lowest, net, even]
  omega

/-- The braces of an artifact's code are balanced or not whatever its fixed lines are. -/
theorem isBalanced_withFixedLines
    {schema : Schema}
    (worded : schema.IsWorded)
    {remark : Option Text}
    (isRemark : ∀ text ∈ remark, IsRemark text)
    (fixedLines : List Text) :
    isBalanced (Text.unlines (remark.toList ++ codeLines (schema.withFixedLines fixedLines))) =
      isBalanced (Text.unlines (remark.toList ++ codeLines (schema.withFixedLines []))) := by
  have linesOf (fixedLines : List Text) :=
    Text.lines_unlines (breakFree_remarked (worded.withFixedLines fixedLines) isRemark)
  rw [isBalanced, isBalanced, linesOf, linesOf, codeLines_withFixedLines,
    codeLines_withFixedLines]
  cases fixedLines with
  | nil => rfl
  | cons first more =>
      have isCode : isCodeLine [] = true := rfl
      simp only [List.isEmpty_cons, List.isEmpty_nil, if_true, Bool.false_eq_true, if_false,
        List.nil_append, List.singleton_append, List.filter_append,
        List.filter_cons_of_pos isCode, ← List.append_assoc]
      exact balancedFrom_append_empty _ _

theorem check_render_eq_of_balance
    {schema : Schema}
    (worded : schema.IsWorded)
    (settings : Settings)
    {source : Option Text}
    (singleLine : ∀ name ∈ source, Text.BreakFree name)
    (fixedLines : List Text) :
    check (schema.withFixedLines fixedLines)
        (Generator.render settings source (schema.withFixedLines fixedLines)) =
      if isBalanced (Generator.render settings source (schema.withFixedLines [])) then
        .ok ()
      else
        .error (.unbalanced schema.name) := by
  have isRemark := isRemark_of_mem_remark settings singleLine
  have bare :
      Generator.render settings source (schema.withFixedLines []) =
        Text.unlines
          ((Generator.remark settings source).toList ++
            codeLines (schema.withFixedLines [])) := by
    rw [Generator.render, render, lines_eq, fixedLines_of_none rfl, codeLines_withFixedLines]
    rfl
  rw [bare, ← isBalanced_withFixedLines worded isRemark fixedLines, Generator.render,
    check_render (worded.withFixedLines fixedLines) isRemark,
    checkCode_codeLines (worded.withFixedLines fixedLines) isRemark]
  rfl

/--
For the schema of a document, with any fixed lines in place of its own, the check
of the artifact ends as it does without fixed lines: with success if the braces of
that artifact are balanced, and else with the fault that they are not.
-/
theorem check_render_withFixedLines
    {document : List Text}
    {schema : Schema}
    {diagnostics : List Diagnostic}
    (completed : Reading.ofLines document = .completed schema diagnostics)
    (settings : Settings)
    {source : Option Text}
    (singleLine : ∀ name ∈ source, Text.BreakFree name)
    (fixedLines : List Text) :
    check (schema.withFixedLines fixedLines)
          (Generator.render settings source (schema.withFixedLines fixedLines)) =
        check (schema.withFixedLines [])
          (Generator.render settings source (schema.withFixedLines [])) ∧
      check (schema.withFixedLines [])
          (Generator.render settings source (schema.withFixedLines [])) =
        if isBalanced (Generator.render settings source (schema.withFixedLines [])) then
          .ok ()
        else
          .error (.unbalanced schema.name) := by
  have worded := Reading.isWorded_of_completed completed
  have judged := check_render_eq_of_balance worded settings singleLine
  exact ⟨(judged fixedLines).trans (judged []).symm, judged []⟩

/-- Lines that end the fixed region early, begin it again and open a class. -/
def intrudingLines : List Text :=
  ["", "//end fixed area\n\n  //fixed area", "\x7d\x7d\r\npublic sealed class Square : Shape \x7b"]

theorem check_render_intrudingLines :
    (∃ diagnostics,
        Reading.ofLines imitatingDocument = .completed imitatingSchema diagnostics) ∧
      Text.BreakFree "shapes.adtValue" ∧
      check (imitatingSchema.withFixedLines intrudingLines)
          (Generator.render { addGenerationComment := .bool true } (some "shapes.adtValue")
            (imitatingSchema.withFixedLines intrudingLines)) =
        .ok () := by
  have completed :
      Reading.ofLines imitatingDocument =
        .completed imitatingSchema (Reading.ofLines imitatingDocument).diagnostics := by
    decide +kernel
  have singleLine : ∀ name ∈ some "shapes.adtValue".toList, Text.BreakFree name := by
    decide
  obtain ⟨same, judged⟩ :=
    check_render_withFixedLines completed { addGenerationComment := .bool true } singleLine
      intrudingLines
  have balanced :
      isBalanced
          (Generator.render { addGenerationComment := .bool true } (some "shapes.adtValue")
            (imitatingSchema.withFixedLines [])) =
        true := by
    decide +kernel
  rw [judged, if_pos balanced] at same
  exact ⟨⟨_, completed⟩, singleLine _ rfl, same⟩

end Artifact

end TaggedUnion
