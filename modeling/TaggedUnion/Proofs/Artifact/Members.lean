import TaggedUnion.Proofs.Artifact.Acceptance

/-!
# The members of the class

The class of an artifact has one nested class for each variant and two match
methods.  Each of them begins with a line that opens it, and it ends at the first
line below that holds only the brace that closes it.

`members` finds the members in the lines of an artifact by these two lines alone.
The words of a schema hold any visible characters, so the lines of the code are
listed by kind, and no other line is taken for one that opens or ends a member.
-/

namespace TaggedUnion.Artifact

/-! ## Reading members -/

/-- The lines of an artifact without the fixed region of the schema. -/
def remainingLines (schema : Schema) (artifact : Text) : List Text :=
  match Text.splitAt? (fixedRegion schema) artifact with
  | none => Text.lines artifact
  | some (before, after) => Text.lines (before ++ after)

/--
The members that lines of some kind open.  Each begins with the line that opens it
and goes on to the line that ends it, without that line.
-/
def members (opens : Text → Bool) : List Text → List (List Text)
  | [] => []
  | line :: rest =>
      if opens line then
        (line :: rest.takeWhile (· ≠ memberEnd)) :: members opens rest
      else
        members opens rest

/-- Whether a line opens the class of a variant. -/
def opensClass (line : Text) : Bool :=
  Text.startsWith declarationStart line

/-- Whether a line opens the match method. -/
def Match.opens (method : Match) (line : Text) : Bool :=
  line = method.headerLine

section

variable {opens : Text → Bool}

theorem members_append
    {group : List Text}
    (closed : ∀ line ∈ group, opens line = false)
    (rest : List Text) :
    members opens (group ++ rest) = members opens rest := by
  induction group with
  | nil => rfl
  | cons line group induction =>
      rw [List.cons_append, members, closed line List.mem_cons_self,
        induction fun other member => closed other (List.mem_cons_of_mem _ member)]
      rfl

theorem members_eq_nil
    {group : List Text}
    (closed : ∀ line ∈ group, opens line = false) :
    members opens group = [] := by
  rw [← List.append_nil group, members_append closed]
  rfl

/-- What is found in the last lines is found last, whatever stands above them. -/
theorem members_suffix (above rest : List Text) :
    members opens rest <:+ members opens (above ++ rest) := by
  induction above with
  | nil => exact List.suffix_rfl
  | cons line above induction =>
      rw [List.cons_append, members]
      split
      · exact induction.trans (List.suffix_cons _ _)
      · exact induction

/-- A member is read up to its end, and the others are found below it. -/
theorem members_cons
    {opening : Text}
    {inner : List Text}
    (opened : opens opening = true)
    (closed : ∀ line ∈ inner ++ [memberEnd], opens line = false)
    (unended : memberEnd ∉ inner)
    (rest : List Text) :
    members opens (opening :: (inner ++ memberEnd :: rest)) =
      (opening :: inner) :: members opens rest := by
  rw [members, if_pos opened, takeWhile_ne_append unended, List.append_cons,
    members_append closed]

/-- A line that opens a member is the first line of one. -/
theorem mem_members_of_split
    {before after inner below : List Text}
    {opening : Text}
    (opened : opens opening = true)
    (unended : memberEnd ∉ inner)
    (isAfter : after = inner ++ memberEnd :: below) :
    opening :: inner ∈ members opens (before ++ opening :: after) := by
  induction before with
  | nil =>
      rw [List.nil_append, members, if_pos opened, isAfter, takeWhile_ne_append unended]
      exact List.mem_cons_self
  | cons line before induction =>
      rw [List.cons_append, members]
      split
      · exact List.mem_cons_of_mem _ induction
      · exact induction

end

/-! ## Lines inside a member -/

/--
A line inside a member: it is indented further than the lines that open and end
members, or closes a list of parameters.
-/
def LiesInside (line : Text) : Prop :=
  "   ".toList <+: line ∨ "  )".toList <+: line

instance (line : Text) : Decidable (LiesInside line) :=
  inferInstanceAs (Decidable ("   ".toList <+: line ∨ "  )".toList <+: line))

theorem liesInside_cat
    {start : Text}
    (inside : LiesInside start)
    (pieces : List Text) :
    LiesInside (.cat (start :: pieces)) :=
  inside.imp (·.trans (List.prefix_append _ _)) (·.trans (List.prefix_append _ _))

namespace LiesInside

variable {line : Text}

theorem opensClass_eq (inside : LiesInside line) : opensClass line = false := by
  rcases inside with ⟨rest, rfl⟩ | ⟨rest, rfl⟩
  · rfl
  · rfl

theorem opens_eq (inside : LiesInside line) (method : Match) : method.opens line = false := by
  rw [Match.opens, decide_eq_false_iff_not]
  rintro rfl
  cases method <;> exact absurd inside (by decide)

theorem ne_memberEnd (inside : LiesInside line) : line ≠ memberEnd := by
  rintro rfl
  exact absurd inside (by decide)

end LiesInside

theorem liesInside_variantInnerLines (schema : Schema) (variant : Variant) :
    ∀ line ∈ variantInnerLines schema variant, LiesInside line := by
  intro line member
  simp only [variantInnerLines, Text.stack, List.flatten_cons, List.flatten_nil,
    List.append_nil, List.mem_append, List.mem_map, List.mem_singleton] at member
  rcases member with ⟨field, -, rfl⟩ | rfl | ⟨field, -, rfl⟩ | rfl
  · exact liesInside_cat (by decide) _
  · exact liesInside_cat (by decide) _
  · exact liesInside_cat (by decide) _
  · decide

namespace Match

/-- What the method does when no branch applies. -/
def fallbackLines : Match → List Text
  | result => ["    return default(T);"]
  | action => []

/-- The lines between the method and what follows it. -/
def gapLines : Match → List Text
  | result => [""]
  | action => []

/-- The lines inside the method. -/
def innerLines (method : Match) (schema : Schema) : List Text :=
  Text.stack
    [withCommas (schema.variantNames.map (method.handler schema.allowNulls)),
      ["  ) \x7b"],
      method.chainLines schema.variantNames,
      method.fallbackLines]

theorem lines_eq_member (method : Match) (schema : Schema) :
    method.lines schema =
      method.headerLine :: (method.innerLines schema ++ memberEnd :: method.gapLines) := by
  cases method <;>
    simp only [Match.lines, innerLines, footerLines, fallbackLines, gapLines, memberEnd,
      Text.stack, List.flatten_cons, List.flatten_nil, List.append_assoc, List.cons_append,
      List.nil_append, List.append_nil]

end Match

theorem liesInside_innerLines (method : Match) (schema : Schema) :
    ∀ line ∈ method.innerLines schema, LiesInside line := by
  intro line member
  simp only [Match.innerLines, Match.chainLines_eq, Text.stack, List.flatten_cons,
    List.flatten_nil, List.append_nil, List.mem_append, List.mem_singleton,
    List.mem_flatMap] at member
  rcases member with handler | rfl | (⟨entry, -, branch⟩ | closing) | fallback
  · rcases exists_of_mem_withCommas handler with ⟨text, textMember, ending, -, rfl⟩
    rcases List.mem_map.mp textMember with ⟨name, -, rfl⟩
    exact liesInside_cat (liesInside_cat (by decide) _) _
  · decide
  · rcases List.mem_pair.mp branch with rfl | rfl
    · exact liesInside_cat (by decide) _
    · cases method <;> exact liesInside_cat (by decide) _
  · split at closing
    · cases closing
    · rw [List.mem_singleton.mp closing]
      decide
  · cases method with
    | result =>
        rw [List.mem_singleton.mp fallback]
        decide
    | action => cases fallback

/-! ## The members of an artifact -/

/-- The lines above the members. -/
def upperLines (schema : Schema) : List Text :=
  Text.stack [frontLines schema, if schema.fixedLines.isEmpty then [] else [""]]

theorem upperLines_eq (schema : Schema) :
    upperLines schema = aboveClassLines schema ++ classLine schema :: classFrontLines schema := by
  simp only [upperLines, frontLines, baseClassLines, aboveClassLines, classLine,
    classFrontLines, Text.stack, List.flatten_cons, List.flatten_nil, List.append_assoc,
    List.cons_append, List.nil_append, List.append_nil, List.drop]

/-- The code is the lines above the members, the members and a closing brace. -/
theorem codeLines_eq_members (schema : Schema) :
    codeLines schema =
      upperLines schema ++
        (schema.variants.flatMap (variantLines schema) ++
          (Match.lines .result schema ++ (Match.lines .action schema ++ ["\x7d".toList]))) := by
  simp only [codeLines, upperLines, backLines, Text.stack, List.flatten_cons, List.flatten_nil,
    List.append_assoc, List.append_nil]

section

variable {schema : Schema} {remark : Option Text}

/-- The artifact without its fixed region is its remark and its code. -/
theorem remainingLines_render
    (worded : schema.IsWorded)
    (isRemark : ∀ text ∈ remark, IsRemark text) :
    remainingLines schema (render remark schema) = remark.toList ++ codeLines schema := by
  rcases splitAt?_render worded isRemark with ⟨before, after, found, isCode, -⟩
  simp only [remainingLines, found]
  rw [isCode, Text.lines_unlines (breakFree_remarked worded isRemark)]

theorem IsOrdinary.opensClass_eq
    {line : Text}
    (ordinary : IsOrdinary line) :
    opensClass line = false := by
  rw [opensClass, Text.startsWith, ← Bool.not_eq_true, List.isPrefixOf_iff_prefix]
  exact ordinary.otherStart

theorem opensClass_declaration (unionName name : Text) :
    opensClass (declaration unionName name) = true :=
  List.isPrefixOf_iff_prefix.mpr (List.prefix_append _ _)

theorem opensClass_upperLines
    (worded : schema.IsWorded)
    (isRemark : ∀ text ∈ remark, IsRemark text) :
    ∀ line ∈ remark.toList ++ upperLines schema, opensClass line = false := by
  intro line member
  simp only [upperLines, Text.stack, List.flatten_cons, List.flatten_nil, List.append_nil,
    List.mem_append] at member
  rcases member with inRemark | front | gap
  · rw [opensClass, Text.startsWith, ← Bool.not_eq_true, List.isPrefixOf_iff_prefix]
    exact (isRemark line (Option.mem_toList.mp inRemark)).otherStart
  · exact (allOrdinary_frontLines worded line front).opensClass_eq
  · exact (allOrdinary_gap schema line gap).opensClass_eq

/-- The classes in an artifact are those of the variants, in their order. -/
theorem members_opensClass
    (worded : schema.IsWorded)
    (isRemark : ∀ text ∈ remark, IsRemark text) :
    members opensClass (remark.toList ++ codeLines schema) =
      schema.variants.map fun variant =>
        declaration schema.name variant.name :: variantInnerLines schema variant := by
  have methods :
      ∀ line ∈ Match.lines .result schema ++ (Match.lines .action schema ++ ["\x7d".toList]),
        opensClass line = false := by
    intro line member
    apply IsOrdinary.opensClass_eq
    apply allOrdinary_matchMethods worded
    simpa [Text.stack] using member
  rw [codeLines_eq_members, ← List.append_assoc,
    members_append (opensClass_upperLines worded isRemark)]
  generalize schema.variants = variants
  induction variants with
  | nil => exact members_eq_nil methods
  | cons variant rest induction =>
      have inside := liesInside_variantInnerLines schema variant
      have above : ∀ line ∈ ["  [Serializable]".toList], opensClass line = false := by
        decide
      have below : ∀ line ∈ [([] : Text)], opensClass line = false := by
        decide
      have closed :
          ∀ line ∈ variantInnerLines schema variant ++ [memberEnd], opensClass line = false := by
        intro line member
        rcases List.mem_append.mp member with inner | ending
        · exact (inside line inner).opensClass_eq
        · rw [List.mem_singleton.mp ending]
          rfl
      have shape (more : List Text) :
          variantLines schema variant ++ more =
            ["  [Serializable]".toList] ++
              declaration schema.name variant.name ::
                (variantInnerLines schema variant ++ memberEnd :: ([[]] ++ more)) := by
        simp [variantLines_eq]
      rw [List.flatMap_cons, List.append_assoc, shape, members_append above,
        members_cons (opensClass_declaration _ _) closed
          (fun ending => (inside _ ending).ne_memberEnd rfl),
        members_append below, induction, List.map_cons]

theorem opens_upperLines
    (method : Match)
    (isRemark : ∀ text ∈ remark, IsRemark text) :
    ∀ line ∈ remark.toList ++ upperLines schema, method.opens line = false := by
  intro line member
  rw [Match.opens, decide_eq_false_iff_not]
  rintro rfl
  simp only [upperLines, Text.stack, List.flatten_cons, List.flatten_nil, List.append_nil,
    List.mem_append] at member
  rcases member with inRemark | front | gap
  · have notCode := (isRemark _ (Option.mem_toList.mp inRemark)).notCode
    cases method <;> cases notCode
  · have ends := getLast?_of_mem_frontLines front
    cases method <;> exact absurd ends (by decide)
  · split at gap
    · cases gap
    · cases method <;> exact absurd (List.mem_singleton.mp gap) (by decide)

theorem opens_variantLines
    (method : Match)
    (schema : Schema)
    (variant : Variant) :
    ∀ line ∈ variantLines schema variant, method.opens line = false := by
  intro line member
  rw [variantLines_eq, List.mem_cons, List.mem_cons, List.mem_append] at member
  rcases member with rfl | rfl | inner | outer
  · cases method <;> decide
  · rw [Match.opens, decide_eq_false_iff_not]
    intro same
    have opened := opensClass_declaration schema.name variant.name
    rw [same] at opened
    cases method <;> cases opened
  · exact (liesInside_variantInnerLines schema variant line inner).opens_eq method
  · revert line
    cases method <;> decide

theorem opens_innerLines
    (method other : Match)
    (schema : Schema) :
    ∀ line ∈ other.innerLines schema ++ [memberEnd], method.opens line = false := by
  intro line member
  rcases List.mem_append.mp member with inside | ending
  · exact (liesInside_innerLines other schema line inside).opens_eq method
  · rw [List.mem_singleton.mp ending]
    cases method <;> rfl

theorem opens_lines_of_ne
    {method other : Match}
    (different : other ≠ method)
    (schema : Schema) :
    ∀ line ∈ other.lines schema, method.opens line = false := by
  have header : method.opens other.headerLine = false := by
    cases method <;> cases other
    · exact (different rfl).elim
    · rfl
    · rfl
    · exact (different rfl).elim
  have gap : ∀ line ∈ other.gapLines, method.opens line = false := by
    cases method <;> cases other <;> decide
  intro line member
  rw [Match.lines_eq_member, List.append_cons, List.mem_cons, List.mem_append] at member
  rcases member with rfl | inner | below
  · exact header
  · exact opens_innerLines method other schema line inner
  · exact gap line below

/-- Below the variants, each match method is found once. -/
theorem members_matchMethods (method : Match) (schema : Schema) :
    members method.opens
        (Match.lines .result schema ++ (Match.lines .action schema ++ ["\x7d".toList])) =
      [method.headerLine :: method.innerLines schema] := by
  have found (below : List Text) :
      members method.opens (method.lines schema ++ below) =
        (method.headerLine :: method.innerLines schema) :: members method.opens below := by
    have gap : ∀ line ∈ method.gapLines, method.opens line = false := by
      cases method <;> decide
    have shape :
        method.lines schema ++ below =
          method.headerLine ::
            (method.innerLines schema ++ memberEnd :: (method.gapLines ++ below)) := by
      simp [Match.lines_eq_member]
    rw [shape, members_cons (decide_eq_true rfl) (opens_innerLines method method schema)
        (fun ending => (liesInside_innerLines method schema _ ending).ne_memberEnd rfl),
      members_append gap]
  cases method with
  | result =>
      rw [found, members_append (opens_lines_of_ne (by decide) schema)]
      rfl
  | action =>
      rw [members_append (opens_lines_of_ne (by decide) schema), found]
      rfl

/-- An artifact has each match method once. -/
theorem members_opens
    (method : Match)
    (isRemark : ∀ text ∈ remark, IsRemark text) :
    members method.opens (remark.toList ++ codeLines schema) =
      [method.headerLine :: method.innerLines schema] := by
  have variants :
      ∀ line ∈ schema.variants.flatMap (variantLines schema), method.opens line = false := by
    intro line member
    rcases List.mem_flatMap.mp member with ⟨variant, -, inVariant⟩
    exact opens_variantLines method schema variant line inVariant
  rw [codeLines_eq_members, ← List.append_assoc, members_append (opens_upperLines method isRemark),
    members_append variants, members_matchMethods]

end

end TaggedUnion.Artifact
