import TaggedUnion.Proofs.Artifact.Nesting

/-!
# Braces in pairs

Inside its class, the code of a schema whose words hold no brace has its braces in
pairs, each of which is opened before it is closed.  This is said of characters and
not of lines: a line that closes the block of one test and opens that of the next
goes below the depth at which it begins, but not below that of the class.

So no part that the code inside the class begins with closes more braces than it
opens.
-/

namespace TaggedUnion.Artifact

/-! ## The braces of a text -/

/-- The braces of a text, in their order. -/
def braces (text : Text) : Text :=
  text.filter fun character => character = '{' ∨ character = '}'

@[simp]
theorem braces_append (first second : Text) :
    braces (first ++ second) = braces first ++ braces second :=
  List.filter_append first second

@[simp]
theorem braces_cat_nil : braces (.cat []) = [] :=
  rfl

@[simp]
theorem braces_cat_cons (piece : Text) (pieces : List Text) :
    braces (.cat (piece :: pieces)) = braces piece ++ braces (.cat pieces) :=
  braces_append piece pieces.flatten

theorem braces_of_braceFree
    {text : Text}
    (free : text.BraceFree) :
    braces text = [] := by
  rw [braces, List.filter_eq_nil_iff]
  intro character member isBrace
  rcases of_decide_eq_true isBrace with rfl | rfl
  · exact free.1 member
  · exact free.2 member

theorem braceBalance_braces (text : Text) : braceBalance (braces text) = braceBalance text := by
  rw [braceBalance, braceBalance, braces, List.count_filter (by decide),
    List.count_filter (by decide)]

@[simp]
theorem braces_unlines_cons (line : Text) (rest : List Text) :
    braces (Text.unlines (line :: rest)) = braces line ++ braces (Text.unlines rest) := by
  rw [Text.unlines_cons, braces_append]
  rfl

theorem isClosed_braces : Text.IsClosed (braces · = []) where
  empty := rfl
  append firstFree secondFree := by
    rw [braces_append, firstFree, secondFree]
    rfl

/-- Lines without a brace make a text without one. -/
theorem braces_unlines_eq_nil
    {group : List Text}
    (free : ∀ line ∈ group, braces line = []) :
    braces (Text.unlines group) = [] := by
  induction group with
  | nil => rfl
  | cons line rest induction =>
      rw [braces_unlines_cons, free line List.mem_cons_self,
        induction fun other member => free other (List.mem_cons_of_mem _ member)]
      rfl

/-! ## Pairs -/

/-- Braces in pairs, each of which has pairs inside it and pairs behind it. -/
inductive IsPaired : Text → Prop where
  | empty : IsPaired []
  | pair
      {inner behind : Text}
      (innerPaired : IsPaired inner)
      (behindPaired : IsPaired behind) :
      IsPaired ('{' :: (inner ++ '}' :: behind))

namespace IsPaired

theorem append
    {first second : Text}
    (firstPaired : IsPaired first)
    (secondPaired : IsPaired second) :
    IsPaired (first ++ second) := by
  induction firstPaired with
  | empty => exact secondPaired
  | pair innerPaired _ _ behindInduction =>
      rw [List.cons_append, List.append_assoc, List.cons_append]
      exact .pair innerPaired behindInduction

theorem braceBalance_eq
    {text : Text}
    (paired : IsPaired text) :
    braceBalance text = 0 := by
  induction paired with
  | empty => rfl
  | pair _ _ innerInduction behindInduction =>
      rw [braceBalance_cons, braceBalance_append, braceBalance_cons '}', innerInduction,
        behindInduction]
      rfl

/-- Pairs are never closed before they are opened. -/
theorem nonneg_front
    {text front : Text}
    (paired : IsPaired text)
    (begins : front <+: text) :
    0 ≤ braceBalance front := by
  induction paired generalizing front with
  | empty =>
      rw [List.prefix_nil.mp begins]
      exact Int.le_refl 0
  | @pair inner behind innerPaired _ innerInduction behindInduction =>
      have opens : braceBalance ['{'] = 1 := rfl
      have closes : braceBalance ['}'] = -1 := rfl
      have even := innerPaired.braceBalance_eq
      rcases List.prefix_cons_iff.mp begins with rfl | ⟨inside, rfl, insideBegins⟩
      · exact Int.le_refl 0
      · rw [braceBalance_cons, opens]
        rcases insideBegins with ⟨rest, whole⟩
        rcases List.append_eq_append_iff.mp whole with
          ⟨more, isInner, -⟩ | ⟨beyond, rfl, beyondBegins⟩
        · have nonneg := innerInduction ⟨more, isInner.symm⟩
          omega
        · rw [braceBalance_append, even]
          rcases List.prefix_cons_iff.mp ⟨rest, beyondBegins.symm⟩ with rfl | ⟨last, rfl, lastBegins⟩
          · decide
          · have nonneg := behindInduction lastBegins
            rw [braceBalance_cons, closes]
            omega

end IsPaired

/-! ## Classes and methods -/

theorem braces_declaration_of_field
    {field : Field}
    (free : field.Each Text.BraceFree) :
    braces field.declaration = [] :=
  declaration_of_closed isClosed_braces rfl (free.imp braces_of_braceFree)

theorem braces_fieldLines
    {start : Text}
    {fields : List Field}
    (startFree : braces start = [])
    (free : ∀ field ∈ fields, field.Each Text.BraceFree) :
    braces (Text.unlines (fields.map fun field => .cat [start, field.declaration, ";"])) =
      [] := by
  apply braces_unlines_eq_nil
  intro line member
  rcases List.mem_map.mp member with ⟨field, fieldMember, rfl⟩
  simp only [braces_cat_cons, braces_cat_nil, startFree,
    braces_declaration_of_field (free field fieldMember)]
  rfl

/-- The class of a variant holds a pair for itself and one for its constructor. -/
theorem isPaired_variantLines
    {schema : Schema}
    {variant : Variant}
    (free : schema.Each Text.BraceFree)
    (variantFree : variant.Each Text.BraceFree) :
    IsPaired (braces (Text.unlines (variantLines schema variant))) := by
  have fields :
      braces
          (Text.unlines
            (variant.fields.map fun field => .cat ["    public ", field.declaration, ";"])) =
        [] :=
    braces_fieldLines rfl variantFree.fields
  have assignments :
      braces
          (Text.unlines
            ((assignedFields schema variant).map fun field =>
              .cat ["      this.", field.name, " = ", field.name, ";"])) =
        [] := by
    apply braces_unlines_eq_nil
    intro line member
    rcases List.mem_map.mp member with ⟨field, fieldMember, rfl⟩
    have nameFree :=
      braces_of_braceFree (each_assignedFields free variantFree field fieldMember).name
    simp only [braces_cat_cons, braces_cat_nil, nameFree]
    rfl
  have parametersFree :
      braces (.joinWith ", " (parameters schema variant)) = [] :=
    isClosed_braces.joinWith rfl
      (parameters_of_closed isClosed_braces rfl (by decide)
        (free.imp braces_of_braceFree) (variantFree.imp braces_of_braceFree))
  have constructorOpens : braces (constructorLine schema variant) = ['{'] := by
    simp only [constructorLine, braces_cat_cons, braces_cat_nil,
      braces_of_braceFree variantFree.name, parametersFree]
    rfl
  have classOpens : braces (declaration schema.name variant.name) = ['{'] := by
    simp only [declaration, declarationEnd, braces_append, braces_cat_cons, braces_cat_nil,
      braces_of_braceFree variantFree.name, braces_of_braceFree free.name]
    rfl
  have spelled :
      braces (Text.unlines (variantLines schema variant)) = ['{', '{', '}', '}'] := by
    simp only [variantLines_eq, variantInnerLines, Text.stack, List.flatten_cons,
      List.flatten_nil, braces_unlines_cons, Text.unlines_append, braces_append, fields,
      assignments, constructorOpens, classOpens]
    rfl
  rw [spelled]
  exact .pair (.pair .empty .empty) .empty

theorem braces_testLine
    {name : Text}
    (free : name.BraceFree)
    (index : Nat) :
    braces (Match.testLine name index) = if index = 0 then ['{'] else ['}', '{'] := by
  simp only [Match.testLine, braces_cat_cons, braces_cat_nil, braces_of_braceFree free,
    braces_of_braceFree (braceFree_binding index)]
  split <;> rfl

theorem braces_callLine
    (method : Match)
    {name : Text}
    (free : name.BraceFree)
    (index : Nat) :
    braces (method.callLine name index) = [] := by
  cases method <;>
    simp only [Match.callLine, braces_cat_cons, braces_cat_nil, braces_of_braceFree free,
      braces_of_braceFree (braceFree_binding index)] <;>
    rfl

/-- Each later test closes the block of the test before it and opens its own. -/
theorem isPaired_branches
    (method : Match)
    {entries : List (Text × Nat)}
    (free : ∀ entry ∈ entries, entry.1.BraceFree)
    (later : ∀ entry ∈ entries, entry.2 ≠ 0) :
    IsPaired
      ('{' :: (braces (Text.unlines (entries.flatMap method.branchLines)) ++ ['}'])) := by
  induction entries with
  | nil => exact .pair .empty .empty
  | cons entry rest induction =>
      have entryFree := free entry List.mem_cons_self
      have onward :=
        induction (fun other member => free other (List.mem_cons_of_mem _ member))
          fun other member => later other (List.mem_cons_of_mem _ member)
      rw [List.flatMap_cons, Match.branchLines, Text.unlines_append, braces_append,
        braces_unlines_cons, braces_testLine entryFree, if_neg (later entry List.mem_cons_self),
        braces_unlines_cons, braces_callLine method entryFree]
      have joined := IsPaired.pair .empty onward
      exact joined

theorem isPaired_chainLines
    (method : Match)
    {names : List Text}
    (free : ∀ name ∈ names, name.BraceFree) :
    IsPaired (braces (Text.unlines (method.chainLines names))) := by
  cases names with
  | nil => exact .empty
  | cons name rest =>
      have nameFree := free name List.mem_cons_self
      have onward :
          IsPaired
            ('{' :: (braces (Text.unlines ((rest.zipIdx 1).flatMap method.branchLines)) ++
              ['}'])) := by
        apply isPaired_branches
        · intro entry member
          exact free entry.1 (List.mem_cons_of_mem name (List.fst_mem_of_mem_zipIdx member))
        · intro entry member
          exact Nat.ne_of_gt (List.le_snd_of_mem_zipIdx member)
      rw [Match.chainLines_eq, List.zipIdx_cons, List.flatMap_cons, Match.branchLines,
        Text.unlines_append, Text.unlines_append, braces_append, braces_append,
        braces_unlines_cons, braces_testLine nameFree, braces_unlines_cons,
        braces_callLine method nameFree]
      exact onward

/-- A match method holds a pair for itself, around those of its tests. -/
theorem isPaired_matchLines
    (method : Match)
    {schema : Schema}
    (free : schema.Each Text.BraceFree) :
    IsPaired (braces (Text.unlines (method.lines schema))) := by
  have handlers :
      braces
          (Text.unlines
            (Match.withCommas (schema.variantNames.map (method.handler schema.allowNulls)))) =
        [] := by
    apply braces_unlines_eq_nil
    intro line member
    rcases exists_of_mem_withCommas member with ⟨handler, handlerMember, ending, ends, rfl⟩
    rcases List.mem_map.mp handlerMember with ⟨name, nameMember, rfl⟩
    have nameFree := braces_of_braceFree (free.variantNames name nameMember)
    have nullFree : braces (if schema.allowNulls then " = null".toList else []) = [] := by
      split <;> rfl
    have endingFree : braces ending = [] := by
      rcases List.mem_pair.mp ends with rfl | rfl <;> rfl
    cases method <;>
      simp only [Match.handler, Match.delegate, braces_cat_cons, braces_cat_nil, nameFree,
        nullFree, endingFree] <;>
      rfl
  have spelled :
      braces (Text.unlines (method.lines schema)) =
        '{' :: (braces (Text.unlines (method.chainLines schema.variantNames)) ++ ['}']) := by
    rw [Match.lines_eq, braces_unlines_cons, Text.unlines_append, braces_append, handlers,
      braces_unlines_cons, Text.unlines_append, braces_append]
    cases method <;> rfl
  rw [spelled]
  exact .pair (isPaired_chainLines method free.variantNames) .empty

theorem braces_knownTypeLines
    {schema : Schema}
    (free : schema.Each Text.BraceFree) :
    braces (Text.unlines (knownTypeLines schema)) = [] := by
  unfold knownTypeLines
  split
  · apply braces_unlines_eq_nil
    intro line member
    rcases List.mem_map.mp member with ⟨name, nameMember, rfl⟩
    simp only [braces_cat_cons, braces_cat_nil,
      braces_of_braceFree (free.variantNames name nameMember)]
    rfl
  · rfl

/-- The code inside the class has its braces in pairs. -/
theorem isPaired_classBodyLines
    {schema : Schema}
    (free : schema.Each Text.BraceFree) :
    IsPaired (braces (Text.unlines (classBodyLines schema))) := by
  have constructorPaired :
      braces (.cat ["  private ", schema.name, "() \x7b \x7d"]) = ['{', '}'] := by
    simp only [braces_cat_cons, braces_cat_nil, braces_of_braceFree free.name]
    rfl
  have sharedFields : braces (Text.unlines (sharedFieldLines schema)) = [] := by
    simp only [sharedFieldLines, Text.stack, List.flatten_cons, List.flatten_nil,
      List.append_nil, Text.unlines_append, braces_append]
    rw [braces_fieldLines rfl free.sharedFields]
    rfl
  have gap : braces (Text.unlines (if schema.fixedLines.isEmpty then [] else [""])) = [] := by
    split <;> rfl
  have variants :
      IsPaired (braces (Text.unlines (schema.variants.flatMap (variantLines schema)))) := by
    have each := free.variants
    generalize schema.variants = listed at each
    induction listed with
    | nil => exact .empty
    | cons variant rest induction =>
        rw [List.flatMap_cons, Text.unlines_append, braces_append]
        exact (isPaired_variantLines free (each variant List.mem_cons_self)).append
          (induction fun other member => each other (List.mem_cons_of_mem _ member))
  have methods :=
    (isPaired_matchLines .result free).append (isPaired_matchLines .action free)
  have spelled :
      braces (Text.unlines (classBodyLines schema)) =
        ['{', '}'] ++
          (braces (Text.unlines (schema.variants.flatMap (variantLines schema))) ++
            (braces (Text.unlines (Match.lines .result schema)) ++
              braces (Text.unlines (Match.lines .action schema)))) := by
    simp only [classBodyLines, baseClassLines, Text.stack, List.drop, List.flatten_cons,
      List.flatten_nil, List.append_nil, Text.unlines_append, braces_append,
      braces_unlines_cons, constructorPaired, sharedFields, gap]
    rfl
  rw [spelled]
  exact (IsPaired.pair .empty .empty).append (variants.append methods)

/-- What the code inside the class begins with closes no more braces than it opens. -/
theorem nonneg_front_classBodyLines
    {schema : Schema}
    (free : schema.Each Text.BraceFree)
    {front : Text}
    (begins : front <+: Text.unlines (classBodyLines schema)) :
    0 ≤ braceBalance front := by
  rw [← braceBalance_braces]
  exact (isPaired_classBodyLines free).nonneg_front (begins.filter _)

end TaggedUnion.Artifact
