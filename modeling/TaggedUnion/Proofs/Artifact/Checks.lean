import TaggedUnion.Artifact.Check
import TaggedUnion.Proofs.Text.Occurrence

/-!
# What the checks see in lines

The check of an artifact works on one text.  This module says what its parts
find in a text that is made of lines: which variants are declared is decided
line by line, and whether the braces are balanced depends only on the balance
of each line.

A group of lines is level when it returns to the depth at which it began and
never goes below it.  Level groups can be put one below the other and between
an opening and a closing line.
-/

namespace TaggedUnion.Artifact

/-! ## Declarations of variants -/

/-- How the declaration of a variant begins. -/
def declarationStart : Text :=
  "  public sealed class "

/-- What follows the name in the declaration of a variant of the named union. -/
def declarationEnd (unionName : Text) : Text :=
  .cat [" : ", unionName, " \x7b"]

/-- The line that declares a variant of the named union. -/
def declaration (unionName name : Text) : Text :=
  declarationStart ++ (name ++ declarationEnd unionName)

theorem takeWhile_visible_append
    {name : Text}
    (isWord : Text.IsWord name)
    (rest : Text) :
    (name ++ ' ' :: rest).takeWhile (!Text.isBlank ·) = name := by
  have visible : ∀ character ∈ name, (!Text.isBlank character) = true := by
    intro character member
    simp [isWord.blankFree character member]
  rw [List.takeWhile_append_of_pos visible, List.takeWhile_cons_of_neg (by decide),
    List.append_nil]

theorem isWord_takeWhile_visible
    {text : Text}
    (nonempty : text.takeWhile (!Text.isBlank ·) ≠ []) :
    Text.IsWord (text.takeWhile (!Text.isBlank ·)) := by
  refine ⟨nonempty, ?_⟩
  intro character member
  have visible := List.all_eq_true.mp (List.all_takeWhile (l := text)) character member
  simpa using visible

/-- The parts that `variantDeclaration?` cuts a text into. -/
theorem variantDeclaration?_eq_some_iff_cut {unionName text name : Text} {length : Nat} :
    variantDeclaration? unionName text = some (name, length) ↔
      ∃ rest tail,
        text = declarationStart ++ rest ∧
          rest.drop (rest.takeWhile (!Text.isBlank ·)).length =
            declarationEnd unionName ++ tail ∧
          name = rest.takeWhile (!Text.isBlank ·) ∧
          name ≠ [] ∧
          (tail = [] ∨ ∃ below, tail = '\n' :: below) ∧
          length = text.length - tail.length := by
  unfold variantDeclaration?
  simp only [Option.bind_eq_bind, Option.bind_eq_some_iff, Text.after?_eq_some_iff]
  constructor
  · rintro ⟨rest, rfl, tail, cut, found⟩
    refine ⟨rest, tail, rfl, cut, ?_⟩
    split at found
    · cases found
    · rename_i nonempty
      split at found
      · cases found
        simpa using nonempty
      · cases found
        simpa using nonempty
      · cases found
  · rintro ⟨rest, tail, rfl, cut, rfl, nonempty, ended, rfl⟩
    refine ⟨rest, rfl, tail, cut, ?_⟩
    rw [if_neg (by simpa using nonempty)]
    rcases ended with rfl | ⟨below, rfl⟩ <;> rfl

/-- A declaration is read from a text that begins with one and then ends the line. -/
theorem variantDeclaration?_eq_some_iff {unionName text name : Text} {length : Nat} :
    variantDeclaration? unionName text = some (name, length) ↔
      Text.IsWord name ∧
        length = (declaration unionName name).length ∧
        ∃ tail,
          text = declaration unionName name ++ tail ∧
            (tail = [] ∨ ∃ below, tail = '\n' :: below) := by
  rw [variantDeclaration?_eq_some_iff_cut]
  constructor
  · rintro ⟨rest, tail, rfl, cut, rfl, nonempty, ended, rfl⟩
    have whole :=
      List.prefix_iff_eq_append.mp (List.takeWhile_prefix (!Text.isBlank ·) (l := rest))
    rw [cut] at whole
    have spelled :
        declarationStart ++ rest =
          declaration unionName (rest.takeWhile (!Text.isBlank ·)) ++ tail := by
      simp only [declaration, List.append_assoc]
      rw [whole]
    refine ⟨isWord_takeWhile_visible nonempty, ?_, tail, spelled, ended⟩
    rw [spelled, List.length_append, Nat.add_sub_cancel]
  · rintro ⟨isWord, rfl, tail, rfl, ended⟩
    have begins : declarationEnd unionName = ' ' :: (declarationEnd unionName).tail := by
      simp [declarationEnd, Text.cat]
    have nameEqual :
        (name ++ (declarationEnd unionName ++ tail)).takeWhile (!Text.isBlank ·) = name := by
      rw [begins]
      exact takeWhile_visible_append isWord _
    refine ⟨name ++ (declarationEnd unionName ++ tail), tail, ?_, ?_, nameEqual.symm,
      isWord.nonempty, ended, ?_⟩
    · simp [declaration]
    · rw [nameEqual, List.drop_left]
    · rw [List.length_append, Nat.add_sub_cancel]

/-- The variant that a line declares, if it is a declaration. -/
def declaredBy? (unionName line : Text) : Option Text :=
  (variantDeclaration? unionName line).map (·.1)

theorem breakFree_declaration
    {unionName name : Text}
    (unionFree : Text.BreakFree unionName)
    (isWord : Text.IsWord name) :
    Text.BreakFree (declaration unionName name) := by
  have startFree : Text.BreakFree declarationStart := by decide
  have endFree : Text.BreakFree (declarationEnd unionName) := by
    simp only [declarationEnd, Text.breakFree_cat_cons, Text.breakFree_cat_nil, and_true]
    exact ⟨by decide, unionFree, by decide⟩
  rw [declaration, Text.breakFree_append, Text.breakFree_append]
  exact ⟨startFree, isWord.breakFree, endFree⟩

theorem variantDeclaration?_of_line
    {unionName line : Text}
    (lineFree : '\n' ∉ line)
    {name : Text}
    {length : Nat} :
    variantDeclaration? unionName line = some (name, length) ↔
      Text.IsWord name ∧ length = line.length ∧ line = declaration unionName name := by
  rw [variantDeclaration?_eq_some_iff]
  constructor
  · rintro ⟨isWord, rfl, tail, rfl, rfl | ⟨below, rfl⟩⟩
    · simp [isWord]
    · simp at lineFree
  · rintro ⟨isWord, rfl, rfl⟩
    exact ⟨isWord, rfl, [], by simp⟩

/-- Whether a line of a text is a declaration does not depend on the lines below it. -/
theorem variantDeclaration?_append_newline
    {unionName line : Text}
    (unionFree : Text.BreakFree unionName)
    (lineFree : '\n' ∉ line)
    (below : Text) :
    variantDeclaration? unionName (line ++ '\n' :: below) =
      variantDeclaration? unionName line := by
  apply Option.ext
  rintro ⟨name, length⟩
  rw [variantDeclaration?_of_line lineFree, variantDeclaration?_eq_some_iff]
  constructor
  · rintro ⟨isWord, rfl, tail, spelled, ended⟩
    have declarationFree := (breakFree_declaration unionFree isWord).newline_notMem
    -- A declaration that reached past the line would hold its line feed.
    rcases ended with rfl | ⟨rest, rfl⟩
    · rw [List.append_nil] at spelled
      exact (declarationFree (by rw [← spelled]; simp)).elim
    · obtain ⟨rfl, -, -⟩ :=
        append_mark_inj (· ≠ '\n')
          (fun character member newline => lineFree (newline ▸ member))
          (fun character member newline => declarationFree (newline ▸ member))
          (by simp) (by simp) spelled
      exact ⟨isWord, rfl, rfl⟩
  · rintro ⟨isWord, rfl, rfl⟩
    exact ⟨isWord, rfl, '\n' :: below, rfl, Or.inr ⟨below, rfl⟩⟩

/-- Inside a line nothing is declared. -/
theorem declaredFrom_inside
    (unionName : Text)
    {line : Text}
    (free : '\n' ∉ line)
    (below : Text) :
    declaredFrom unionName 0 false (line ++ '\n' :: below) =
      declaredFrom unionName 0 true below := by
  induction line with
  | nil => simp [declaredFrom]
  | cons character line induction =>
      obtain ⟨notNewline, rest⟩ := not_or.mp (List.mem_cons.not.mp free)
      rw [List.cons_append, declaredFrom]
      simpa [Ne.symm notNewline] using induction rest

theorem declaredFrom_newline (unionName : Text) (atStart : Bool) (below : Text) :
    declaredFrom unionName 0 atStart ('\n' :: below) =
      declaredFrom unionName 0 true below := by
  have undeclared : variantDeclaration? unionName ('\n' :: below) = none := by
    simp [variantDeclaration?, Text.after?]
  cases atStart <;> simp [declaredFrom, undeclared]

/-- A declaration is passed over to the end of its line. -/
theorem declaredFrom_skipped
    (unionName : Text)
    {line : Text}
    (free : '\n' ∉ line)
    (atStart : Bool)
    (below : Text) :
    declaredFrom unionName line.length atStart (line ++ '\n' :: below) =
      declaredFrom unionName 0 true below := by
  induction line generalizing atStart with
  | nil => exact declaredFrom_newline unionName atStart below
  | cons character line induction =>
      obtain ⟨-, rest⟩ := not_or.mp (List.mem_cons.not.mp free)
      rw [List.cons_append, List.length_cons, declaredFrom]
      exact induction rest _

theorem declaredFrom_line
    {unionName line : Text}
    (unionFree : Text.BreakFree unionName)
    (lineFree : '\n' ∉ line)
    (below : Text) :
    declaredFrom unionName 0 true (line ++ '\n' :: below) =
      (declaredBy? unionName line).toList ++ declaredFrom unionName 0 true below := by
  have whole := variantDeclaration?_append_newline unionFree lineFree below
  cases line with
  | nil =>
      rw [List.nil_append, declaredFrom_newline]
      rfl
  | cons character line =>
      obtain ⟨notNewline, rest⟩ := not_or.mp (List.mem_cons.not.mp lineFree)
      rw [List.cons_append] at whole ⊢
      rw [declaredFrom, if_pos rfl, whole, declaredBy?]
      cases declared : variantDeclaration? unionName (character :: line) with
      | none =>
          simpa [Ne.symm notNewline] using declaredFrom_inside unionName rest below
      | some found =>
          obtain ⟨name, length⟩ := found
          obtain ⟨-, rfl, -⟩ := (variantDeclaration?_of_line lineFree).mp declared
          simpa using declaredFrom_skipped unionName rest _ below

/-- The variants that lines declare are those that each of them declares. -/
theorem declaredVariants_unlines
    {unionName : Text}
    {group : List Text}
    (unionFree : Text.BreakFree unionName)
    (groupFree : ∀ line ∈ group, '\n' ∉ line) :
    declaredVariants unionName (Text.unlines group) =
      group.filterMap (declaredBy? unionName) := by
  rw [declaredVariants]
  induction group with
  | nil => rfl
  | cons line rest induction =>
      rw [Text.unlines_cons,
        declaredFrom_line unionFree (groupFree line List.mem_cons_self),
        induction fun other member => groupFree other (List.mem_cons_of_mem _ member),
        List.filterMap_cons]
      cases declaredBy? unionName line <;> rfl

theorem declaredBy?_declaration
    {unionName name : Text}
    (unionFree : Text.BreakFree unionName)
    (isWord : Text.IsWord name) :
    declaredBy? unionName (declaration unionName name) = some name := by
  have found :=
    (variantDeclaration?_of_line
      (breakFree_declaration unionFree isWord).newline_notMem).mpr ⟨isWord, rfl, rfl⟩
  rw [declaredBy?, found]
  rfl

theorem declaredBy?_of_not_start
    (unionName : Text)
    {line : Text}
    (otherStart : ¬ declarationStart <+: line) :
    declaredBy? unionName line = none := by
  have undeclared : variantDeclaration? unionName line = none := by
    rw [Option.eq_none_iff_forall_ne_some]
    rintro ⟨name, length⟩ found
    obtain ⟨-, -, tail, rfl, -⟩ := variantDeclaration?_eq_some_iff.mp found
    exact otherStart (by simp [declaration])
  rw [declaredBy?, undeclared]
  rfl

/-- A line feed at the end of a text ends a declaration as the end of the text does. -/
theorem variantDeclaration?_concat_newline
    {unionName : Text}
    (unionFree : Text.BreakFree unionName)
    (text : Text) :
    variantDeclaration? unionName (text ++ ['\n']) = variantDeclaration? unionName text := by
  apply Option.ext
  rintro ⟨name, length⟩
  rw [variantDeclaration?_eq_some_iff, variantDeclaration?_eq_some_iff]
  refine and_congr_right fun isWord => and_congr_right fun _ => ?_
  constructor
  · rintro ⟨tail, spelled, ended⟩
    rcases ended with rfl | ⟨below, rfl⟩
    · rw [List.append_nil] at spelled
      have declarationFree := (breakFree_declaration unionFree isWord).newline_notMem
      exact (declarationFree (by rw [← spelled]; simp)).elim
    · rcases List.eq_nil_or_concat below with rfl | ⟨below, last, rfl⟩
      · exact ⟨[], by simpa using List.append_cancel_right spelled, Or.inl rfl⟩
      · rw [List.concat_eq_append, ← List.cons_append, ← List.append_assoc] at spelled
        exact ⟨'\n' :: below, (List.append_inj' spelled rfl).1, Or.inr ⟨below, rfl⟩⟩
  · rintro ⟨tail, rfl, ended⟩
    refine ⟨tail ++ ['\n'], List.append_assoc _ _ _, Or.inr ?_⟩
    rcases ended with rfl | ⟨below, rfl⟩
    · exact ⟨[], rfl⟩
    · exact ⟨below ++ ['\n'], rfl⟩

theorem declaredFrom_concat_newline
    {unionName : Text}
    (unionFree : Text.BreakFree unionName)
    (skip : Nat)
    (atStart : Bool)
    (text : Text) :
    declaredFrom unionName skip atStart (text ++ ['\n']) =
      declaredFrom unionName skip atStart text := by
  induction text generalizing skip atStart with
  | nil =>
      cases skip with
      | zero => exact declaredFrom_newline unionName atStart []
      | succ skip => rfl
  | cons character rest induction =>
      cases skip with
      | zero =>
          have same := variantDeclaration?_concat_newline unionFree (character :: rest)
          rw [List.cons_append] at same ⊢
          simp only [declaredFrom, same, induction]
      | succ skip =>
          rw [List.cons_append, declaredFrom, declaredFrom, induction]

/-- A line feed at the end of a text declares no further variant. -/
theorem declaredVariants_concat_newline
    {unionName : Text}
    (unionFree : Text.BreakFree unionName)
    (text : Text) :
    declaredVariants unionName (text ++ ['\n']) = declaredVariants unionName text :=
  declaredFrom_concat_newline unionFree 0 true text

/-! ## Balance of braces -/

@[simp]
theorem braceBalance_append (first second : Text) :
    braceBalance (first ++ second) = braceBalance first + braceBalance second := by
  simp only [braceBalance, List.count_append]
  omega

@[simp]
theorem braceBalance_cat_nil : braceBalance (.cat []) = 0 :=
  rfl

@[simp]
theorem braceBalance_cat_cons (piece : Text) (pieces : List Text) :
    braceBalance (.cat (piece :: pieces)) = braceBalance piece + braceBalance (.cat pieces) :=
  braceBalance_append piece pieces.flatten

theorem braceBalance_cons (character : Char) (rest : Text) :
    braceBalance (character :: rest) = braceBalance [character] + braceBalance rest :=
  braceBalance_append [character] rest

theorem braceBalance_of_isLineBreak
    {character : Char}
    (breaks : Text.isLineBreak character = true) :
    braceBalance [character] = 0 := by
  have noOpening : '{' ≠ character := by
    rintro rfl
    cases breaks
  have noClosing : '}' ≠ character := by
    rintro rfl
    cases breaks
  simp [braceBalance, noOpening.symm, noClosing.symm]

/-- By how much a group of lines changes the depth of nesting. -/
def net : List Text → Int
  | [] => 0
  | line :: rest => braceBalance line + net rest

/-- The least depth that a group of lines reaches, where it begins at depth zero. -/
def lowest : List Text → Int
  | [] => 0
  | line :: rest => min 0 (braceBalance line + lowest rest)

@[simp]
theorem net_append (first second : List Text) :
    net (first ++ second) = net first + net second := by
  induction first with
  | nil => simp [net]
  | cons line rest induction =>
      rw [List.cons_append, net, net, induction]
      omega

theorem net_consLine (character : Char) (group : List Text) :
    net (Text.consLine character group) = braceBalance [character] + net group := by
  cases group with
  | nil => rfl
  | cons line rest =>
      rw [Text.consLine, net, net, braceBalance_cons]
      omega

/-- A text changes the depth as its lines do. -/
theorem net_lines (text : Text) : net (Text.lines text) = braceBalance text := by
  have emptyLine (group : List Text) : net ([] :: group) = net group := Int.zero_add _
  fun_induction Text.lines text with
  | case1 => rfl
  | case2 rest induction =>
      rw [emptyLine, induction, braceBalance_cons, braceBalance_of_isLineBreak (by decide),
        braceBalance_cons, braceBalance_of_isLineBreak (by decide), Int.zero_add, Int.zero_add]
  | case3 character rest _ breaks induction =>
      rw [emptyLine, induction, braceBalance_cons, braceBalance_of_isLineBreak breaks,
        Int.zero_add]
  | case4 character rest _ keeps induction =>
      rw [net_consLine, induction, ← braceBalance_cons]

theorem lowest_le_zero (group : List Text) : lowest group ≤ 0 := by
  cases group with
  | nil => exact Int.le_refl 0
  | cons line rest => exact Int.min_le_left _ _

theorem lowest_append (first second : List Text) :
    lowest (first ++ second) = min (lowest first) (net first + lowest second) := by
  induction first with
  | nil =>
      have below := lowest_le_zero second
      simp only [List.nil_append, lowest, net]
      omega
  | cons line rest induction =>
      simp only [List.cons_append, lowest, net, induction]
      omega

theorem lowest_le_net
    {front group : List Text}
    (begins : front <+: group) :
    lowest group ≤ net front := by
  rcases begins with ⟨rest, rfl⟩
  have below := lowest_le_zero rest
  rw [lowest_append]
  omega

/-- Lines are balanced if they stay at or above the depth zero and end there. -/
theorem balancedFrom_iff
    {depth : Int}
    (nonneg : 0 ≤ depth)
    (group : List Text) :
    balancedFrom depth group = true ↔
      0 ≤ depth + lowest group ∧ depth + net group = 0 := by
  induction group generalizing depth with
  | nil =>
      simp only [balancedFrom, decide_eq_true_eq, lowest, net]
      omega
  | cons line rest induction =>
      have below := lowest_le_zero rest
      simp only [balancedFrom, Bool.and_eq_true, decide_eq_true_eq, lowest, net]
      by_cases stays : 0 ≤ depth + braceBalance line
      · rw [induction stays]
        omega
      · omega

/-! ## Level groups -/

/-- A group of lines that ends at the depth where it begins and never goes below it. -/
structure IsLevel (group : List Text) : Prop where
  net_eq : net group = 0
  lowest_eq : lowest group = 0

theorem IsLevel.nonneg_front
    {front group : List Text}
    (level : IsLevel group)
    (begins : front <+: group) :
    0 ≤ net front :=
  level.lowest_eq ▸ lowest_le_net begins

theorem isLevel_nil : IsLevel [] :=
  ⟨rfl, rfl⟩

theorem IsLevel.append
    {first second : List Text}
    (firstLevel : IsLevel first)
    (secondLevel : IsLevel second) :
    IsLevel (first ++ second) := by
  refine ⟨?_, ?_⟩
  · rw [net_append, firstLevel.net_eq, secondLevel.net_eq]
    rfl
  · rw [lowest_append, firstLevel.net_eq, firstLevel.lowest_eq, secondLevel.lowest_eq]
    rfl

/-- Lines that do not change the depth are level. -/
theorem isLevel_of_even
    {group : List Text}
    (even : ∀ line ∈ group, braceBalance line = 0) :
    IsLevel group := by
  induction group with
  | nil => exact isLevel_nil
  | cons line rest induction =>
      have restLevel :=
        induction fun other member => even other (List.mem_cons_of_mem _ member)
      refine ⟨?_, ?_⟩
      · rw [net, even line List.mem_cons_self, restLevel.net_eq]
        rfl
      · rw [lowest, even line List.mem_cons_self, restLevel.lowest_eq]
        rfl

theorem IsLevel.cons
    {line : Text}
    {rest : List Text}
    (even : braceBalance line = 0)
    (level : IsLevel rest) :
    IsLevel (line :: rest) := by
  have single : IsLevel [line] := isLevel_of_even (by simpa using even)
  exact single.append level

/-- A level group between an opening and a closing line, with a level group below them. -/
theorem IsLevel.block
    {opening closing : Text}
    {inner below : List Text}
    (opens : braceBalance opening = 1)
    (closes : braceBalance closing = -1)
    (innerLevel : IsLevel inner)
    (belowLevel : IsLevel below) :
    IsLevel (opening :: (inner ++ closing :: below)) := by
  refine ⟨?_, ?_⟩
  · simp [net, opens, closes, innerLevel.net_eq, belowLevel.net_eq]
  · rw [lowest, lowest_append, lowest, opens, closes, innerLevel.net_eq,
      innerLevel.lowest_eq, belowLevel.lowest_eq]
    rfl

theorem isLevel_flatMap
    {α : Type}
    {elements : List α}
    {lines : α → List Text}
    (level : ∀ element ∈ elements, IsLevel (lines element)) :
    IsLevel (elements.flatMap lines) := by
  induction elements with
  | nil => exact isLevel_nil
  | cons element rest induction =>
      rw [List.flatMap_cons]
      exact (level element List.mem_cons_self).append
        (induction fun other member => level other (List.mem_cons_of_mem _ member))

/-- Lines whose code is level make a balanced text. -/
theorem isBalanced_unlines
    {group : List Text}
    (free : ∀ line ∈ group, Text.BreakFree line)
    (level : IsLevel (group.filter isCodeLine)) :
    isBalanced (Text.unlines group) = true := by
  rw [isBalanced, Text.lines_unlines free, balancedFrom_iff (Int.le_refl 0),
    level.net_eq, level.lowest_eq]
  decide

/-! ## The verdict -/

theorem checkCode_eq_ok_iff {schema : Schema} {code : Text} :
    checkCode schema code = .ok () ↔
      Text.hasPart (baseClassDeclaration schema.name) code = true ∧
        declaredVariants schema.name code = schema.variantNames ∧
        isBalanced code = true := by
  unfold checkCode
  dsimp only
  split
  · simp_all
  · split
    · simp_all
    · split <;> simp_all

end TaggedUnion.Artifact
