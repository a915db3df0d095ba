import TaggedUnion.Proofs.Artifact.Members

/-!
# The depth of members

The code of an artifact is not only balanced.  It is at depth zero down to the line
that opens the class, and inside the class until its last line.  Each member begins
at depth one, and from the line that opens the class of a variant the depth returns
to one at the line that ends it, not earlier.

`HoldsMembers` says this of a group of lines on its own, from depth zero, so that it
is proved for a variant and for a method and carried over to groups that follow each
other.
-/

namespace TaggedUnion.Artifact

/-- Whether a line opens a member of the class. -/
def opensMember (line : Text) : Bool :=
  opensClass line || Match.opens .result line || Match.opens .action line

theorem opensMember_of_opensClass
    {line : Text}
    (opens : opensClass line = true) :
    opensMember line = true := by
  rw [opensMember, opens]
  rfl

theorem opensMember_eq_false
    {line : Text}
    (notClass : opensClass line = false)
    (notMethod : ∀ method : Match, method.opens line = false) :
    opensMember line = false := by
  rw [opensMember, notClass, notMethod, notMethod]
  rfl

theorem LiesInside.opensMember_eq
    {line : Text}
    (inside : LiesInside line) :
    opensMember line = false :=
  opensMember_eq_false inside.opensClass_eq inside.opens_eq

/-! ## Groups that hold members -/

/--
A level group whose members begin at depth zero, and whose classes are blocks: the
lines between the one that opens a class and the one that ends it are level.
-/
structure HoldsMembers (group : List Text) : Prop where
  level : IsLevel group
  reached :
    ∀ {before line after},
      group = before ++ line :: after → opensMember line = true → net before = 0
  ended :
    ∀ {before line after},
      group = before ++ line :: after →
        opensClass line = true →
          braceBalance line = 1 ∧
            ∃ inner below,
              after = inner ++ memberEnd :: below ∧
                IsLevel inner ∧
                memberEnd ∉ inner ∧
                ∀ other ∈ inner, opensMember other = false

theorem holdsMembers_of_closed
    {group : List Text}
    (level : IsLevel group)
    (closed : ∀ line ∈ group, opensMember line = false) :
    HoldsMembers group where
  level := level
  reached := by
    rintro before line after rfl opens
    rw [closed line (by simp)] at opens
    cases opens
  ended := by
    rintro before line after rfl opens
    have opened := opensMember_of_opensClass opens
    rw [closed line (by simp)] at opened
    cases opened

theorem HoldsMembers.append
    {first second : List Text}
    (firstHolds : HoldsMembers first)
    (secondHolds : HoldsMembers second) :
    HoldsMembers (first ++ second) where
  level := firstHolds.level.append secondHolds.level
  reached := by
    intro before line after split opens
    rcases split_append split with ⟨rest, isFirst, -⟩ | ⟨rest, rfl, isSecond⟩
    · exact firstHolds.reached isFirst opens
    · rw [net_append, firstHolds.level.net_eq, secondHolds.reached isSecond opens]
      rfl
  ended := by
    intro before line after split opens
    rcases split_append split with ⟨rest, isFirst, rfl⟩ | ⟨rest, -, isSecond⟩
    · rcases firstHolds.ended isFirst opens with ⟨opensOne, inner, below, rfl, facts⟩
      exact ⟨opensOne, inner, below ++ second, by simp, facts⟩
    · exact secondHolds.ended isSecond opens

theorem holdsMembers_flatMap
    {α : Type}
    {elements : List α}
    {lines : α → List Text}
    (holds : ∀ element ∈ elements, HoldsMembers (lines element)) :
    HoldsMembers (elements.flatMap lines) := by
  induction elements with
  | nil => exact holdsMembers_of_closed isLevel_nil (by simp)
  | cons element rest induction =>
      rw [List.flatMap_cons]
      exact (holds element List.mem_cons_self).append
        (induction fun other member => holds other (List.mem_cons_of_mem _ member))

/-- If only the first line of a group can open a member, a line that does is the first. -/
theorem split_of_closed_tail
    {opening line : Text}
    {tail before after : List Text}
    (closed : ∀ other ∈ tail, opensMember other = false)
    (split : opening :: tail = before ++ line :: after)
    (opens : opensMember line = true) :
    before = [] ∧ opening = line ∧ tail = after := by
  rcases List.cons_eq_append_iff.mp split with ⟨rfl, same⟩ | ⟨more, -, isTail⟩
  · rcases List.cons.inj same with ⟨rfl, rfl⟩
    exact ⟨rfl, rfl, rfl⟩
  · rw [closed line (by simp [isTail])] at opens
    cases opens

/-! ## The members of the code -/

section

variable {schema : Schema}

theorem holdsMembers_variantLines
    {variant : Variant}
    (braces : schema.BracesMatch)
    (variantBraces : variant.Each Text.BracesMatch) :
    HoldsMembers (variantLines schema variant) := by
  have inside := liesInside_variantInnerLines schema variant
  have innerLevel := isLevel_variantInnerLines braces variantBraces
  have opensOne := braceBalance_declaration braces.name variantBraces.name
  have above : HoldsMembers ["  [Serializable]".toList] :=
    holdsMembers_of_closed (.cons rfl isLevel_nil) (by decide)
  have below : ∀ line ∈ memberEnd :: [[]], opensMember line = false := by
    decide
  have closed :
      ∀ line ∈ variantInnerLines schema variant ++ memberEnd :: [[]],
        opensMember line = false := by
    intro line member
    rcases List.mem_append.mp member with inner | ending
    · exact (inside line inner).opensMember_eq
    · exact below line ending
  rw [variantLines_eq]
  refine above.append ⟨?_, ?_, ?_⟩
  · exact .block opensOne rfl innerLevel (.cons rfl isLevel_nil)
  · intro before line after split opens
    rcases split_of_closed_tail closed split opens with ⟨rfl, -, -⟩
    rfl
  · intro before line after split opens
    rcases split_of_closed_tail closed split (opensMember_of_opensClass opens) with
      ⟨-, rfl, rfl⟩
    refine ⟨opensOne, variantInnerLines schema variant, [[]], rfl, innerLevel, ?_, ?_⟩
    · exact fun ending => (inside _ ending).ne_memberEnd rfl
    · exact fun other member => (inside other member).opensMember_eq

theorem holdsMembers_matchLines
    (method : Match)
    (braces : schema.BracesMatch) :
    HoldsMembers (method.lines schema) := by
  have level := isLevel_matchLines method braces
  have below : ∀ line ∈ memberEnd :: method.gapLines, opensMember line = false := by
    cases method <;> decide
  have closed :
      ∀ line ∈ method.innerLines schema ++ memberEnd :: method.gapLines,
        opensMember line = false := by
    intro line member
    rcases List.mem_append.mp member with inner | ending
    · exact (liesInside_innerLines method schema line inner).opensMember_eq
    · exact below line ending
  rw [Match.lines_eq_member] at level ⊢
  refine ⟨level, ?_, ?_⟩
  · intro before line after split opens
    rcases split_of_closed_tail closed split opens with ⟨rfl, -, -⟩
    rfl
  · intro before line after split opens
    rcases split_of_closed_tail closed split (opensMember_of_opensClass opens) with
      ⟨-, rfl, -⟩
    cases method <;> cases opens

theorem opensMember_upperLines
    (worded : schema.IsWorded) :
    ∀ line ∈ upperLines schema, opensMember line = false := by
  intro line member
  apply opensMember_eq_false
  · exact opensClass_upperLines worded isRemark_of_mem_none line member
  · exact fun method => opens_upperLines method isRemark_of_mem_none line member

theorem holdsMembers_classBodyLines
    (worded : schema.IsWorded)
    (braces : schema.BracesMatch) :
    HoldsMembers (classBodyLines schema) := by
  have front : HoldsMembers (classFrontLines schema) := by
    apply holdsMembers_of_closed (isLevel_classFrontLines braces)
    intro line member
    apply opensMember_upperLines worded
    rw [upperLines_eq]
    exact List.mem_append_right _ (List.mem_cons_of_mem _ member)
  have variants : HoldsMembers (schema.variants.flatMap (variantLines schema)) :=
    holdsMembers_flatMap fun variant member =>
      holdsMembers_variantLines braces (braces.variants variant member)
  have methods :=
    (holdsMembers_matchLines .result braces).append (holdsMembers_matchLines .action braces)
  rw [classBodyLines_eq]
  exact front.append (variants.append methods)

/-- A line of the code that opens a member stands inside the class. -/
theorem exists_split_classBodyLines
    (worded : schema.IsWorded)
    {before after : List Text}
    {line : Text}
    (split : codeLines schema = before ++ line :: after)
    (opens : opensMember line = true) :
    ∃ inside below,
      classBodyLines schema = inside ++ line :: below ∧
        before = aboveClassLines schema ++ classLine schema :: inside ∧
        after = below ++ ["\x7d".toList] := by
  rw [codeLines_eq, List.append_cons] at split
  rcases split_append split with ⟨rest, isAbove, -⟩ | ⟨inside, isBefore, isBody⟩
  · have member : line ∈ upperLines schema := by
      rw [upperLines_eq, List.append_cons, isAbove]
      simp
    rw [opensMember_upperLines worded line member] at opens
    cases opens
  · rcases split_append isBody with ⟨below, isInside, isAfter⟩ | ⟨rest, -, isLast⟩
    · refine ⟨inside, below, isInside, ?_, isAfter⟩
      rw [isBefore, List.append_assoc]
      rfl
    · have last : line = "\x7d".toList := by
        have member : line ∈ ["\x7d".toList] := by
          rw [isLast]
          simp
        exact List.mem_singleton.mp member
      rw [last] at opens
      cases opens

/-- The depth inside the class is one more than that of the lines of the class alone. -/
theorem net_insideClass
    (braces : schema.BracesMatch)
    (inside : List Text) :
    net (aboveClassLines schema ++ classLine schema :: inside) = 1 + net inside := by
  have above := isLevel_of_even (braceBalance_of_mem_aboveClassLines braces)
  rw [net_append, net, above.net_eq, braceBalance_classLine braces, Int.zero_add]

end

/--
The code of an artifact is well nested if the braces in every word of the schema match,
and so if no word holds a brace.  It is at depth zero above the class, at depth one or
more inside it, and at depth zero again after its last line.  The members are reached at
depth one, and from the line that opens the class of a variant the depth first returns
to one at the line that ends this class, above which no other member begins.
-/
theorem code_wellNested
    {document : List Text}
    {schema : Schema}
    {diagnostics : List Diagnostic}
    (completed : Reading.ofLines document = .completed schema diagnostics)
    (braces : schema.BracesMatch)
    (settings : Settings)
    {source : Option Text}
    (singleLine : ∀ name ∈ source, Text.BreakFree name) :
    ∃ code,
      remainingLines schema (Generator.render settings source schema) =
          (Generator.remark settings source).toList ++ code ∧
        (∃ above inside,
          code = above ++ classLine schema :: (inside ++ ["\x7d".toList]) ∧
            classLine schema ∉ above ∧
            (∀ front, front <+: above → net front = 0) ∧
            (∀ front, front <+: inside → 1 ≤ net (above ++ classLine schema :: front)) ∧
            net code = 0) ∧
        (members opensClass code =
          schema.variants.map fun variant =>
            declaration schema.name variant.name :: variantInnerLines schema variant) ∧
        (∀ method : Match,
          members method.opens code = [method.headerLine :: method.innerLines schema]) ∧
        (∀ before line after,
          code = before ++ line :: after → opensMember line = true → net before = 1) ∧
        ∀ before line after,
          code = before ++ line :: after →
            opensClass line = true →
              ∃ inner below,
                after = inner ++ memberEnd :: below ∧
                  line :: inner ∈ members opensClass code ∧
                  (∀ other ∈ inner, opensMember other = false) ∧
                  (∀ front, front <+: inner → 1 < net (before ++ line :: front)) ∧
                  net (before ++ line :: (inner ++ [memberEnd])) = 1 := by
  have worded := Reading.isWorded_of_completed completed
  have isRemark := isRemark_of_mem_remark settings singleLine
  have holds := holdsMembers_classBodyLines worded braces
  have reached :
      ∀ before line after,
        codeLines schema = before ++ line :: after →
          opensMember line = true → net before = 1 := by
    intro before line after split opens
    rcases exists_split_classBodyLines worded split opens with ⟨inside, below, isBody, rfl, -⟩
    rw [net_insideClass braces, holds.reached isBody opens]
    rfl
  refine ⟨codeLines schema, remainingLines_render worded isRemark, ?_,
    members_opensClass worded isRemark_of_mem_none,
    fun method => members_opens method isRemark_of_mem_none, reached, ?_⟩
  · refine ⟨aboveClassLines schema, classBodyLines schema, codeLines_eq schema,
      classLine_not_mem schema isRemark_of_mem_none, ?_, ?_, (isLevel_codeLines braces).net_eq⟩
    · intro front begins
      have even := braceBalance_of_mem_aboveClassLines braces
      exact (isLevel_of_even fun line member => even line (begins.subset member)).net_eq
    · intro front begins
      have nonneg := holds.level.nonneg_front begins
      rw [net_insideClass braces]
      omega
  · intro before line after split opens
    have atOne := reached before line after split (opensMember_of_opensClass opens)
    rcases exists_split_classBodyLines worded split (opensMember_of_opensClass opens) with
      ⟨inside, rest, isBody, -, isAfter⟩
    rcases holds.ended isBody opens with ⟨opensOne, inner, below, rfl, level, unended, closed⟩
    rw [List.append_assoc, List.cons_append] at isAfter
    refine ⟨inner, below ++ ["\x7d".toList], isAfter, ?_, closed, ?_, ?_⟩
    · rw [split]
      exact mem_members_of_split opens unended isAfter
    · intro front begins
      have nonneg := level.nonneg_front begins
      rw [net_append, net, atOne, opensOne]
      omega
    · have closesOne : net [memberEnd] = -1 := rfl
      rw [net_append, net, net_append, atOne, opensOne, level.net_eq, closesOne]
      rfl

/-- A document with open braces in its fixed lines and with matching braces in a type. -/
def treeDocument : List Text :=
  ["Set KnownTypes", "Tree \x7b", "&\x7b\x7b", "Leaf \x7b", "\x7d", "Node \x7b",
    "Map<\x7b\x7d> children", "\x7d", "\x7d"]

/-- The schema of the document. -/
def treeSchema : Schema where
  name := "Tree"
  knownTypes := true
  fixedLines := ["\x7b\x7b"]
  variants := [⟨"Leaf", []⟩, ⟨"Node", [⟨"Map<\x7b\x7d>", "children"⟩]⟩]

/-- The class of its second variant is reached at depth one. -/
theorem code_treeSchema :
    let artifact :=
      Generator.render { addGenerationComment := .bool true } (some "trees.adtValue") treeSchema
    let remark := "// Generated by adt_remodel 1.0.0 from trees.adtValue. Do not edit.".toList
    (∃ diagnostics, Reading.ofLines treeDocument = .completed treeSchema diagnostics) ∧
      treeSchema.BracesMatch ∧
      ∃ before after,
        remainingLines treeSchema artifact =
            remark :: (before ++ "  public sealed class Node : Tree \x7b".toList :: after) ∧
          net before = 1 := by
  intro artifact remark
  have completed :
      Reading.ofLines treeDocument =
        .completed treeSchema (Reading.ofLines treeDocument).diagnostics := by
    decide +kernel
  have braces : treeSchema.BracesMatch := by
    refine ⟨by decide, List.forall_mem_nil _, List.forall_mem_nil _, ?_⟩
    refine List.forall_mem_cons.mpr ⟨⟨by decide, List.forall_mem_nil _⟩, ?_⟩
    exact List.forall_mem_singleton.mpr
      ⟨by decide, List.forall_mem_singleton.mpr ⟨by decide, by decide⟩⟩
  have singleLine : ∀ name ∈ some "trees.adtValue".toList, Text.BreakFree name := by
    decide
  rcases code_wellNested completed braces { addGenerationComment := .bool true } singleLine with
    ⟨code, isCode, -, -, -, reached, -⟩
  have isRemark :
      Generator.remark { addGenerationComment := .bool true } (some "trees.adtValue") =
        some remark := by
    decide +kernel
  rw [isRemark] at isCode
  have declared :
      "  public sealed class Node : Tree \x7b".toList ∈
        (remainingLines treeSchema artifact).tail := by
    decide +kernel
  rw [isCode, Option.toList_some, List.singleton_append, List.tail_cons] at declared
  rcases List.append_of_mem declared with ⟨before, after, split⟩
  refine ⟨⟨_, completed⟩, braces, before, after, ?_, reached before _ after split rfl⟩
  rw [isCode, split]
  rfl

end TaggedUnion.Artifact
