import TaggedUnion.Generator
import TaggedUnion.Proofs.Artifact.Nesting

/-!
# The check accepts the generator's artifacts

The check looks for the fixed region by its text and judges what remains.  It
finds the region where the layout put it, because no line above ends like the
line that introduces it, so the fixed lines never take part in the judgement.
What remains declares the base class and the variants, and only braces in the
words of the schema can unbalance it.
-/

namespace TaggedUnion.Artifact

/-! ## The fixed region is found where it stands -/

/-- A line whose last character is not that of the mark. -/
def EndsElsewise (line : Text) : Prop :=
  line.getLast? ≠ some 'a'

instance (line : Text) : Decidable (EndsElsewise line) :=
  inferInstanceAs (Decidable (line.getLast? ≠ some 'a'))

theorem EndsElsewise.not_suffix
    {line : Text}
    (elsewise : EndsElsewise line) :
    ¬ fixedMark <:+ line := by
  rintro ⟨start, rfl⟩
  apply elsewise
  rw [List.getLast?_append]
  rfl

/-- How the lines above the fixed region can end. -/
theorem getLast?_of_mem_frontLines
    {schema : Schema}
    {line : Text}
    (member : line ∈ frontLines schema) :
    line.getLast? ∈ [none, some ';', some ']', some '{', some '}'] := by
  have ending
      {first middle final : Text}
      {last : Char}
      (ends : final.getLast? = some last)
      (listed : some last ∈ [none, some ';', some ']', some '{', some '}']) :
      (Text.cat [first, middle, final]).getLast? ∈
        [none, some ';', some ']', some '{', some '}'] :=
    (Text.getLast?_cat_ending ends).symm ▸ listed
  simp only [frontLines, baseClassLines, sharedFieldLines, Text.stack, List.flatten_cons,
    List.flatten_nil, List.append_nil, List.mem_append, List.mem_cons, List.not_mem_nil,
    or_false] at member
  rcases member with heading | known | (rfl | rfl | rfl | rfl | rfl | rfl) | shared | rfl
  · revert line
    decide
  · unfold knownTypeLines at known
    split at known
    · rcases List.mem_map.mp known with ⟨name, -, rfl⟩
      exact ending rfl (by decide)
    · cases known
  · decide
  · exact ending rfl (by decide)
  · exact ending rfl (by decide)
  · decide
  · decide
  · decide
  · rcases List.mem_map.mp shared with ⟨field, -, rfl⟩
    exact ending rfl (by decide)
  · decide

theorem endsElsewise_frontLines (schema : Schema) :
    ∀ line ∈ frontLines schema, EndsElsewise line := by
  intro line member ends
  have known := getLast?_of_mem_frontLines member
  rw [ends] at known
  exact absurd known (by decide)

/-- A comment of one line that the check can tell from the rest of an artifact. -/
structure IsRemark (text : Text) : Prop where
  breakFree : Text.BreakFree text
  notCode : isCodeLine text = false
  otherStart : ¬ declarationStart <+: text
  endsElsewise : EndsElsewise text

theorem isRemark_generationComment
    {source : Option Text}
    (singleLine : ∀ name ∈ source, Text.BreakFree name) :
    IsRemark (generationComment source) := by
  have sourceFree : Text.BreakFree (source.getD []) := by
    cases source with
    | none => exact Text.breakFree_nil
    | some name => exact singleLine name rfl
  have originFree :
      Text.BreakFree
        (if (source.getD []).isEmpty then [] else .cat [" from ", source.getD []]) := by
    split
    · exact Text.breakFree_nil
    · simp only [Text.breakFree_cat_cons, Text.breakFree_cat_nil, and_true]
      exact ⟨by decide, sourceFree⟩
  have ends : (generationComment source).getLast? = some '.' := Text.getLast?_cat_ending rfl
  refine ⟨?_, rfl, ?_, by rw [EndsElsewise, ends]; decide⟩
  · simp only [generationComment, Text.breakFree_cat_cons, Text.breakFree_cat_nil, and_true]
    exact ⟨by decide, originFree, by decide⟩
  · rintro ⟨rest, equal⟩
    exact absurd (List.cons.inj equal).1 (by decide)

theorem isRemark_of_mem_none : ∀ text ∈ (none : Option Text), IsRemark text := by
  simp

theorem isRemark_of_mem_remark
    (settings : Settings)
    {source : Option Text}
    (singleLine : ∀ name ∈ source, Text.BreakFree name) :
    ∀ text ∈ Generator.remark settings source, IsRemark text := by
  intro text member
  unfold Generator.remark at member
  split at member
  · obtain rfl := Option.mem_some_iff.mp member
    exact isRemark_generationComment singleLine
  · cases member

/-- The fixed region stands first where the layout put it, with the code around it. -/
theorem splitAt?_render
    {schema : Schema}
    (worded : schema.IsWorded)
    {remark : Option Text}
    (isRemark : ∀ text ∈ remark, IsRemark text) :
    ∃ before after,
      Text.splitAt? (fixedRegion schema) (render remark schema) = some (before, after) ∧
        before ++ after = Text.unlines (remark.toList ++ codeLines schema) ∧
        Text.unlines (backLines schema) <:+ after := by
  cases fixed : schema.fixedLines.isEmpty with
  | true =>
      have region : fixedRegion schema = [] := by
        rw [fixedRegion, fixedRegionLines, fixed]
        rfl
      have whole : lines remark schema = remark.toList ++ codeLines schema := by
        simp [lines_eq, fixedLines_of_none fixed, codeLines, fixed, Text.stack]
      rw [region, Text.splitAt?_nil, render, whole]
      refine ⟨[], _, rfl, rfl, ?_⟩
      simp only [codeLines, Text.stack, List.flatten_cons, List.flatten_nil, List.append_nil,
        Text.unlines_append, ← List.append_assoc]
      exact List.suffix_append _ _
  | false =>
      have whole :
          lines remark schema =
            (remark.toList ++ frontLines schema) ++
              (fixedMark :: indentedLines schema ++ [] :: backLines schema) := by
        simp [lines_eq, fixedLines_of_some fixed]
      have code :
          remark.toList ++ codeLines schema =
            (remark.toList ++ frontLines schema) ++ [] :: backLines schema := by
        simp [codeLines, fixed, Text.stack]
      have aboveElsewise :
          ∀ line ∈ remark.toList ++ frontLines schema,
            Text.BreakFree line ∧ EndsElsewise line := by
        intro line member
        rcases List.mem_append.mp member with inRemark | front
        · have lineRemark := isRemark line (Option.mem_toList.mp inRemark)
          exact ⟨lineRemark.breakFree, lineRemark.endsElsewise⟩
        · exact ⟨(allOrdinary_frontLines worded line front).breakFree,
            endsElsewise_frontLines schema line front⟩
      rw [fixedRegion, fixedRegionLines_of_some fixed, render, whole,
        Text.splitAt?_unlines (by decide)
          (fun line member => (aboveElsewise line member).1.newline_notMem)
          (fun line member => (aboveElsewise line member).2.not_suffix),
        code]
      refine ⟨_, _, rfl, (Text.unlines_append _ _).symm, ?_⟩
      rw [Text.unlines_cons]
      exact List.suffix_cons '\n' _

/--
The check judges the artifact's code and nothing else: the fixed region, with
whatever its lines contain, is cut out where the layout put it.
-/
theorem check_render
    {schema : Schema}
    (worded : schema.IsWorded)
    {remark : Option Text}
    (isRemark : ∀ text ∈ remark, IsRemark text) :
    check schema (render remark schema) =
      checkCode schema (Text.unlines (remark.toList ++ codeLines schema)) := by
  rcases splitAt?_render worded isRemark with ⟨before, after, found, code, -⟩
  simp only [check, found, code]

/-! ## The code passes the judgement -/

theorem baseClassDeclaration_eq (schema : Schema) :
    baseClassDeclaration schema.name = '\n' :: (classLine schema ++ ['\n']) := by
  simp only [baseClassDeclaration, classLine, Text.cat, List.flatten_cons, List.flatten_nil,
    List.append_nil, List.append_assoc]
  rfl

/-- The base class is declared where its line stands below others. -/
theorem hasPart_of_classLine
    (schema : Schema)
    (above : List Text)
    (line below : Text) :
    Text.hasPart (baseClassDeclaration schema.name)
      (Text.unlines (above ++ [line, classLine schema]) ++ below) = true := by
  rw [Text.hasPart_iff, baseClassDeclaration_eq]
  refine ⟨Text.unlines above ++ line, below, ?_⟩
  simp only [Text.unlines_append, Text.unlines_cons, Text.unlines_nil, List.append_assoc,
    List.cons_append, List.nil_append]

theorem hasPart_baseClassDeclaration (remark : Option Text) (schema : Schema) :
    Text.hasPart (baseClassDeclaration schema.name)
      (Text.unlines (remark.toList ++ codeLines schema)) = true := by
  have spelled :
      remark.toList ++ codeLines schema =
        ((remark.toList ++ (headingLines none ++ knownTypeLines schema)) ++
            ["[Serializable]".toList, classLine schema]) ++
          (classBodyLines schema ++ ["\x7d".toList]) := by
    simp [codeLines_eq, aboveClassLines, Text.stack]
  rw [spelled, Text.unlines_append]
  exact hasPart_of_classLine schema _ _ _

/-- No line above the class of a schema opens a class, be it of another schema. -/
theorem classLine_not_mem
    {schema : Schema}
    (other : Schema)
    {remark : Option Text}
    (isRemark : ∀ text ∈ remark, IsRemark text) :
    classLine other ∉ remark.toList ++ aboveClassLines schema := by
  have starts : (classLine other).head? = some 'p' := rfl
  intro member
  simp only [aboveClassLines, Text.stack, List.flatten_cons, List.flatten_nil, List.append_nil,
    List.mem_append] at member
  rcases member with inRemark | heading | known | serializable
  · have isCode : isCodeLine (classLine other) = true :=
      isCodeLine_append "public abstract class " (by decide) _
    rw [(isRemark _ (Option.mem_toList.mp inRemark)).notCode] at isCode
    cases isCode
  · have others : ∀ line ∈ headingLines none, line.head? ≠ some 'p' := by decide
    exact others _ heading starts
  · unfold knownTypeLines at known
    split at known
    · rcases List.mem_map.mp known with ⟨name, -, same⟩
      rw [← same] at starts
      cases starts
    · cases known
  · rw [List.mem_singleton.mp serializable] at starts
    cases starts

theorem breakFree_remarked
    {schema : Schema}
    (worded : schema.IsWorded)
    {remark : Option Text}
    (isRemark : ∀ text ∈ remark, IsRemark text) :
    ∀ line ∈ remark.toList ++ codeLines schema, Text.BreakFree line := by
  intro line member
  rcases List.mem_append.mp member with inRemark | inCode
  · exact (isRemark line (Option.mem_toList.mp inRemark)).breakFree
  · exact breakFree_codeLines worded line inCode

theorem declaredVariants_codeLines
    {schema : Schema}
    (worded : schema.IsWorded)
    {remark : Option Text}
    (isRemark : ∀ text ∈ remark, IsRemark text) :
    declaredVariants schema.name (Text.unlines (remark.toList ++ codeLines schema)) =
      schema.variantNames := by
  have remarkDeclares : remark.toList.filterMap (declaredBy? schema.name) = [] := by
    rw [List.filterMap_eq_nil_iff]
    intro line member
    exact declaredBy?_of_not_start schema.name
      (isRemark line (Option.mem_toList.mp member)).otherStart
  rw [declaredVariants_unlines worded.name.breakFree
      (fun line member => (breakFree_remarked worded isRemark line member).newline_notMem),
    List.filterMap_append, remarkDeclares, List.nil_append,
    filterMap_declaredBy?_codeLines worded]

/-- Only unbalanced braces can make the check refuse an artifact's code. -/
theorem checkCode_codeLines
    {schema : Schema}
    (worded : schema.IsWorded)
    {remark : Option Text}
    (isRemark : ∀ text ∈ remark, IsRemark text) :
    checkCode schema (Text.unlines (remark.toList ++ codeLines schema)) =
      if isBalanced (Text.unlines (remark.toList ++ codeLines schema)) then
        .ok ()
      else
        .error (.unbalanced schema.name) := by
  unfold checkCode
  simp only [hasPart_baseClassDeclaration, declaredVariants_codeLines worded isRemark]
  simp only [Bool.not_true, Bool.false_eq_true, if_false, ne_eq, not_true_eq_false]
  cases isBalanced (Text.unlines (remark.toList ++ codeLines schema)) <;> rfl

theorem filter_isCodeLine_remark
    {remark : Option Text}
    (isRemark : ∀ text ∈ remark, IsRemark text) :
    remark.toList.filter isCodeLine = [] := by
  rw [List.filter_eq_nil_iff]
  intro line member
  simp [(isRemark line (Option.mem_toList.mp member)).notCode]

theorem isBalanced_codeLines
    {schema : Schema}
    (worded : schema.IsWorded)
    (braces : schema.BracesMatch)
    {remark : Option Text}
    (isRemark : ∀ text ∈ remark, IsRemark text) :
    isBalanced (Text.unlines (remark.toList ++ codeLines schema)) = true := by
  have codeKept : (codeLines schema).filter isCodeLine = codeLines schema :=
    List.filter_eq_self.mpr (isCodeLine_codeLines worded)
  apply isBalanced_unlines (breakFree_remarked worded isRemark)
  rw [List.filter_append, filter_isCodeLine_remark isRemark, codeKept, List.nil_append]
  exact isLevel_codeLines braces

/--
The artifact of a document is never refused for its structure, whatever its
fixed lines and its words contain, and it is accepted if the braces in each
of the schema's words match.
-/
theorem check_render_of_completed
    {document : List Text}
    {schema : Schema}
    {diagnostics : List Diagnostic}
    (completed : Reading.ofLines document = .completed schema diagnostics)
    (settings : Settings)
    {source : Option Text}
    (singleLine : ∀ name ∈ source, Text.BreakFree name) :
    (check schema (Generator.render settings source schema) = .ok () ∨
        check schema (Generator.render settings source schema) =
          .error (.unbalanced schema.name)) ∧
      (schema.BracesMatch →
        check schema (Generator.render settings source schema) = .ok ()) := by
  have worded := Reading.isWorded_of_completed completed
  have isRemark := isRemark_of_mem_remark settings singleLine
  rw [Generator.render, check_render worded isRemark, checkCode_codeLines worded isRemark]
  constructor
  · split
    · exact Or.inl rfl
    · exact Or.inr rfl
  · intro braces
    rw [if_pos (isBalanced_codeLines worded braces isRemark)]

/-- A document whose fixed lines imitate the artifact around them and open braces. -/
def imitatingDocument : List Text :=
  ["Shape \x7b", "&//fixed area", "&public sealed class Square : Shape \x7b\x7b",
    "Map<\x7b\x7d> sizes", "Circle \x7b", "double radius", "\x7d", "\x7d"]

/-- The schema of the imitating document. -/
def imitatingSchema : Schema where
  name := "Shape"
  baseFields := [⟨"Map<\x7b\x7d>", "sizes"⟩]
  fixedLines := ["//fixed area", "public sealed class Square : Shape \x7b\x7b"]
  variants := [⟨"Circle", [⟨"double", "radius"⟩]⟩]

theorem check_render_imitatingSchema :
    (∃ diagnostics,
        Reading.ofLines imitatingDocument = .completed imitatingSchema diagnostics) ∧
      imitatingSchema.BracesMatch ∧
      check imitatingSchema
          (Generator.render { addGenerationComment := .bool true } (some "shapes.adtValue")
            imitatingSchema) =
        .ok () := by
  have completed :
      Reading.ofLines imitatingDocument =
        .completed imitatingSchema (Reading.ofLines imitatingDocument).diagnostics := by
    decide +kernel
  have singleLine : ∀ name ∈ some "shapes.adtValue".toList, Text.BreakFree name := by
    decide
  have braces : imitatingSchema.BracesMatch := by
    refine ⟨by decide, ?_, ?_, ?_⟩
    · exact List.forall_mem_singleton.mpr ⟨by decide, by decide⟩
    · exact List.forall_mem_nil _
    · exact List.forall_mem_singleton.mpr
        ⟨by decide, List.forall_mem_singleton.mpr ⟨by decide, by decide⟩⟩
  exact ⟨⟨_, completed⟩, braces, (check_render_of_completed completed _ singleLine).2 braces⟩

end TaggedUnion.Artifact
