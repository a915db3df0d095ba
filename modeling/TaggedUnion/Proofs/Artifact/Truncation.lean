import TaggedUnion.Proofs.Artifact.Acceptance
import TaggedUnion.Proofs.Artifact.Pairing

/-!
# Artifacts whose end is lost

An artifact that has lost its end is refused, wherever it was cut.  If the cut is
above the end of the fixed region, the region is not found.  If it is above the end
of the line that opens the class, the class is not declared.  And if it is below that
line but above the last brace, that brace is missed, because all others up to the cut
are in pairs or still open.

Only the line feed after the last brace can be lost without being missed.
-/

namespace TaggedUnion.Artifact

variable {schema : Schema} {remark : Option Text} {kept code lost : Text}

/-- The lines down to the one that opens the class. -/
def openingLines (schema : Schema) : List Text :=
  aboveClassLines schema ++ [classLine schema]

theorem codeLines_eq_openingLines (schema : Schema) :
    codeLines schema = openingLines schema ++ (classBodyLines schema ++ ["\x7d".toList]) := by
  simp [codeLines_eq, openingLines]

theorem hasPart_of_openingLines
    (remark : Option Text)
    (schema : Schema)
    (below : Text) :
    Text.hasPart (baseClassDeclaration schema.name)
      (Text.unlines (remark.toList ++ openingLines schema) ++ below) = true := by
  have spelled :
      remark.toList ++ openingLines schema =
        (remark.toList ++ (headingLines none ++ knownTypeLines schema)) ++
          ["[Serializable]".toList, classLine schema] := by
    simp [openingLines, aboveClassLines, Text.stack]
  rw [spelled]
  exact hasPart_of_classLine schema _ _ _

/-! ## The fixed region -/

/-- The check judges what is left of the code, unless the fixed region is cut. -/
theorem check_of_append
    (worded : schema.IsWorded)
    (isRemark : ∀ text ∈ remark, IsRemark text)
    (whole : kept ++ lost = render remark schema) :
    (∃ code,
        code ++ lost = Text.unlines (remark.toList ++ codeLines schema) ∧
          check schema kept = checkCode schema code) ∨
      check schema kept = .error (.missingFixedRegion schema.name) ∧
        (Text.unlines (backLines schema)).length < lost.length := by
  rcases splitAt?_render worded isRemark with ⟨before, after, found, isCode, isEnd⟩
  rw [← whole] at found
  rcases Text.splitAt?_of_append found with ⟨rest, rfl, stays⟩ | ⟨gone, short⟩
  · refine Or.inl ⟨before ++ rest, ?_, ?_⟩
    · rw [List.append_assoc, isCode]
    · simp only [check, stays]
  · refine Or.inr ⟨?_, Nat.lt_of_le_of_lt isEnd.length_le short⟩
    simp only [check, gone]

/-! ## A lost line feed -/

/-- The line feed after the last line is not missed. -/
theorem checkCode_of_lost_newline
    (worded : schema.IsWorded)
    (matching : schema.BracesMatch)
    (isRemark : ∀ text ∈ remark, IsRemark text)
    (whole : code ++ ['\n'] = Text.unlines (remark.toList ++ codeLines schema)) :
    checkCode schema code = .ok () := by
  have spelled :
      remark.toList ++ codeLines schema =
        ((remark.toList ++ openingLines schema) ++ classBodyLines schema) ++
          ["\x7d".toList] := by
    simp [codeLines_eq_openingLines]
  have free := breakFree_remarked worded isRemark
  rw [spelled] at free
  have isCode :
      code =
        Text.unlines ((remark.toList ++ openingLines schema) ++ classBodyLines schema) ++
          "\x7d".toList := by
    have ends : Text.unlines ["\x7d".toList] = "\x7d".toList ++ ['\n'] := rfl
    rw [spelled, Text.unlines_append, ends, ← List.append_assoc] at whole
    exact List.append_cancel_right whole
  have sameLines :
      Text.lines code = Text.lines (Text.unlines (remark.toList ++ codeLines schema)) := by
    rw [spelled, Text.lines_unlines free, isCode, Text.lines_unlines_append]
    · rfl
    · exact fun line member => free line (List.mem_append_left _ member)
  rw [checkCode_eq_ok_iff]
  refine ⟨?_, ?_, ?_⟩
  · rw [isCode, Text.unlines_append, List.append_assoc]
    exact hasPart_of_openingLines remark schema _
  · rw [← declaredVariants_concat_newline worded.name.breakFree, whole]
    exact declaredVariants_codeLines worded isRemark
  · rw [isBalanced, sameLines]
    exact isBalanced_codeLines worded matching isRemark

/-! ## A lost brace -/

/-- Code that declares the class goes on below the line that opens it. -/
theorem prefix_of_declared
    (worded : schema.IsWorded)
    (isRemark : ∀ text ∈ remark, IsRemark text)
    (whole : code ++ lost = Text.unlines (remark.toList ++ codeLines schema))
    (declares : Text.hasPart (baseClassDeclaration schema.name) code = true) :
    Text.unlines (remark.toList ++ openingLines schema) <+: code := by
  have spelled :
      remark.toList ++ codeLines schema =
        (remark.toList ++ openingLines schema) ++
          (classBodyLines schema ++ ["\x7d".toList]) := by
    simp [codeLines_eq_openingLines]
  have free : ∀ line ∈ remark.toList ++ openingLines schema, '\n' ∉ line := by
    intro line member
    apply (breakFree_remarked worded isRemark line ?_).newline_notMem
    rw [spelled]
    exact List.mem_append_left _ member
  rw [openingLines, ← List.append_assoc] at free
  have begins :
      Text.unlines (remark.toList ++ openingLines schema) <+:
        Text.unlines (remark.toList ++ codeLines schema) := by
    rw [spelled, Text.unlines_append _ (classBodyLines schema ++ _)]
    exact List.prefix_append _ _
  rcases List.prefix_or_prefix_of_prefix begins ⟨lost, whole⟩ with reached | short
  · exact reached
  · -- the line feed after the line that opens the class is not yet reached
    have ends :
        Text.unlines (remark.toList ++ openingLines schema) =
          (Text.unlines (remark.toList ++ aboveClassLines schema) ++ classLine schema) ++
            ['\n'] := by
      simp [openingLines]
    rw [ends] at short ⊢
    rcases List.prefix_concat_iff.mp short with same | shorter
    · exact same ▸ List.prefix_rfl
    · rw [Text.hasPart_iff, baseClassDeclaration_eq] at declares
      have member : classLine schema ∈ remark.toList ++ aboveClassLines schema := by
        refine Text.mem_of_infix_unlines ?_ ?_ ?_ (declares.trans shorter.isInfix)
        · exact free _ (by simp)
        · exact fun line inAbove => free line (List.mem_append_left _ inAbove)
        · exact free _ (by simp)
      exact (classLine_not_mem schema isRemark member).elim

theorem braceBalance_openingLines
    (free : schema.Each Text.BraceFree) :
    braceBalance (Text.unlines (openingLines schema)) = 1 := by
  have opens : braces (classLine schema) = ['{'] := by
    simp only [classLine, braces_cat_cons, braces_cat_nil, braces_of_braceFree free.name]
    rfl
  have spelled : braces (Text.unlines (openingLines schema)) = ['{'] := by
    simp only [openingLines, aboveClassLines, Text.stack, List.flatten_cons, List.flatten_nil,
      List.append_nil, Text.unlines_append, braces_append, braces_knownTypeLines free,
      braces_unlines_cons, opens]
    rfl
  rw [← braceBalance_braces, spelled]
  rfl

/-- Balanced code closes all braces that it opens, since no part of it is a comment. -/
theorem braceBalance_of_isBalanced
    (worded : schema.IsWorded)
    (isRemark : ∀ text ∈ remark, IsRemark text)
    {bare : Text}
    (begins : bare <+: Text.unlines (codeLines schema))
    (balanced : isBalanced (Text.unlines remark.toList ++ bare) = true) :
    braceBalance bare = 0 := by
  have remarkFree : ∀ line ∈ remark.toList, Text.BreakFree line :=
    fun line member => (isRemark line (Option.mem_toList.mp member)).breakFree
  have codeKept : (Text.lines bare).filter isCodeLine = Text.lines bare := by
    rw [List.filter_eq_self]
    intro line member
    rcases Text.exists_line_of_mem_lines (breakFree_codeLines worded) begins member with
      ⟨wholeLine, inCode, isFront⟩
    exact isCodeLine_front isFront (isCodeLine_codeLines worded wholeLine inCode)
  rw [isBalanced, Text.lines_unlines_append remarkFree, List.filter_append,
    filter_isCodeLine_remark isRemark, codeKept, List.nil_append,
    balancedFrom_iff (Int.le_refl 0), Int.zero_add, Int.zero_add] at balanced
  rw [← net_lines]
  exact balanced.2

/-- What is left of the code inside the class, if its last brace is lost. -/
theorem prefix_of_lost_brace
    {rest : Text}
    (whole : rest ++ lost = Text.unlines (classBodyLines schema ++ ["\x7d".toList]))
    (nonempty : lost ≠ [])
    (notNewline : lost ≠ ['\n']) :
    rest <+: Text.unlines (classBodyLines schema) := by
  have spelled :
      Text.unlines (classBodyLines schema ++ ["\x7d".toList]) =
        (Text.unlines (classBodyLines schema) ++ ['}']) ++ ['\n'] := by
    simp
  rw [spelled] at whole
  rcases List.prefix_concat_iff.mp ⟨lost, whole⟩ with all | shorter
  · rw [← all] at whole
    exact (nonempty (List.append_right_eq_self.mp whole)).elim
  · rcases List.prefix_concat_iff.mp shorter with brace | begins
    · rw [← brace] at whole
      exact (notNewline (List.append_cancel_left whole)).elim
    · exact begins

/-- Code that has lost its last brace is refused. -/
theorem checkCode_ne_ok
    (worded : schema.IsWorded)
    (free : schema.Each Text.BraceFree)
    (isRemark : ∀ text ∈ remark, IsRemark text)
    (whole : code ++ lost = Text.unlines (remark.toList ++ codeLines schema))
    (nonempty : lost ≠ [])
    (notNewline : lost ≠ ['\n']) :
    checkCode schema code ≠ .ok () := by
  intro accepted
  rcases checkCode_eq_ok_iff.mp accepted with ⟨declares, -, balanced⟩
  rcases prefix_of_declared worded isRemark whole declares with ⟨rest, rfl⟩
  rw [Text.unlines_append, Text.unlines_append, List.append_assoc, List.append_assoc] at whole
  rw [Text.unlines_append, List.append_assoc] at balanced
  have bareWhole := List.append_cancel_left whole
  rw [← List.append_assoc] at bareWhole
  have even := braceBalance_of_isBalanced worded isRemark ⟨lost, bareWhole⟩ balanced
  rw [codeLines_eq_openingLines, Text.unlines_append, List.append_assoc] at bareWhole
  have inside := prefix_of_lost_brace (List.append_cancel_left bareWhole) nonempty notNewline
  have nonneg := nonneg_front_classBodyLines free inside
  rw [braceBalance_append, braceBalance_openingLines free] at even
  omega

/-! ## Any cut -/

theorem exists_backLines_eq_concat (schema : Schema) :
    ∃ inner, backLines schema = inner ++ ["\x7d".toList] := by
  refine ⟨Text.stack
    [schema.variants.flatMap (variantLines schema), Match.lines .result schema,
      Match.lines .action schema], ?_⟩
  simp [backLines, Text.stack]

/--
The check refuses what is left of the artifact of a document after a cut at any
character, if no word of the schema holds a brace and whatever its fixed lines hold.
Only the final line feed can be lost: what is left then is accepted.
-/
theorem check_prefix_of_render
    {document : List Text}
    {diagnostics : List Diagnostic}
    (completed : Reading.ofLines document = .completed schema diagnostics)
    (free : schema.Each Text.BraceFree)
    (settings : Settings)
    {source : Option Text}
    (singleLine : ∀ name ∈ source, Text.BreakFree name) :
    let artifact := Generator.render settings source schema
    (∃ kept, kept ++ ['\n'] = artifact ∧ check schema kept = .ok ()) ∧
      ∀ kept, kept <+: artifact → kept ≠ artifact → kept ++ ['\n'] ≠ artifact →
        ∃ fault, check schema kept = .error fault := by
  intro artifact
  have worded := Reading.isWorded_of_completed completed
  have isRemark := isRemark_of_mem_remark settings singleLine
  rcases exists_backLines_eq_concat schema with ⟨inner, ends⟩
  constructor
  · have whole :
        (Text.unlines ((Generator.remark settings source).toList ++
              (frontLines schema ++ (fixedLines schema ++ inner))) ++ ['}']) ++ ['\n'] =
          artifact := by
      simp [artifact, Generator.render, render, lines_eq, ends]
    refine ⟨_, whole, ?_⟩
    rcases check_of_append worded isRemark whole with ⟨code, isCode, same⟩ | ⟨-, short⟩
    · rw [same]
      exact checkCode_of_lost_newline worded (free.imp (·.bracesMatch)) isRemark isCode
    · rw [ends] at short
      simp at short
  · rintro kept ⟨lost, whole⟩ proper notNewline
    have nonempty : lost ≠ [] := by
      rintro rfl
      rw [List.append_nil] at whole
      exact proper whole
    have lostMore : lost ≠ ['\n'] := by
      rintro rfl
      exact notNewline whole
    rcases check_of_append worded isRemark whole with ⟨code, isCode, same⟩ | ⟨missing, -⟩
    · have refused := checkCode_ne_ok worded free isRemark isCode nonempty lostMore
      cases verdict : checkCode schema code with
      | ok accepted => exact (refused verdict).elim
      | error fault => exact ⟨fault, same.trans verdict⟩
    · exact ⟨_, missing⟩

/-- A document whose fixed lines hold marks, braces and declarations. -/
def crowdedDocument : List Text :=
  ["Set KnownTypes", "Shape \x7b", "&//fixed area", "&//end fixed area", "&\x7d\x7d",
    "&public abstract class Shape \x7b\x7b", "Circle \x7b", "double radius", "\x7d", "Square \x7b",
    "\x7d", "\x7d"]

/-- The schema of the document. -/
def crowdedSchema : Schema where
  name := "Shape"
  knownTypes := true
  fixedLines :=
    ["//fixed area", "//end fixed area", "\x7d\x7d", "public abstract class Shape \x7b\x7b"]
  variants := [⟨"Circle", [⟨"double", "radius"⟩]⟩, ⟨"Square", []⟩]

/-- Its artifact is refused after a cut in the middle and accepted without its line feed. -/
theorem check_prefix_of_crowdedSchema :
    let artifact := Generator.render {} (some "shapes.adtValue") crowdedSchema
    (∃ diagnostics, Reading.ofLines crowdedDocument = .completed crowdedSchema diagnostics) ∧
      crowdedSchema.Each Text.BraceFree ∧
      (∃ kept, kept ++ ['\n'] = artifact ∧ check crowdedSchema kept = .ok ()) ∧
      ∃ fault, check crowdedSchema (artifact.take 700) = .error fault := by
  intro artifact
  have completed :
      Reading.ofLines crowdedDocument =
        .completed crowdedSchema (Reading.ofLines crowdedDocument).diagnostics := by
    decide +kernel
  have free : crowdedSchema.Each Text.BraceFree := by
    refine ⟨by decide, List.forall_mem_nil _, List.forall_mem_nil _, ?_⟩
    refine List.forall_mem_cons.mpr ⟨⟨by decide, ?_⟩, List.forall_mem_singleton.mpr
      ⟨by decide, List.forall_mem_nil _⟩⟩
    exact List.forall_mem_singleton.mpr ⟨by decide, by decide⟩
  have singleLine : ∀ name ∈ some "shapes.adtValue".toList, Text.BreakFree name := by
    decide
  have proper :
      artifact.take 700 ≠ artifact ∧ artifact.take 700 ++ ['\n'] ≠ artifact := by
    decide +kernel
  rcases check_prefix_of_render completed free {} singleLine with ⟨accepted, refused⟩
  exact ⟨⟨_, completed⟩, free, accepted,
    refused _ (List.take_prefix 700 artifact) proper.1 proper.2⟩

end TaggedUnion.Artifact
