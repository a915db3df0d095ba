import TaggedUnion.Proofs.Artifact.Members
import Mathlib.Data.List.Nodup

/-!
# Match methods dispatch to the first handler

A match method is read back from its lines: the parameters that take handlers, the
branches that test for a variant, and the call on the line below each test.  An
instance of a class is dispatched by the first branch that tests for its class, to
the first parameter with the name that the branch calls.

Both methods of an artifact have one parameter and one branch for each variant, in
the order of the variants.  So an instance of a variant's class reaches the handler
of the first variant with its name.
-/

namespace TaggedUnion.Artifact.Match

/-! ## Reading a method -/

/-- A parameter that takes the handler for a variant. -/
structure Parameter where
  /-- The argument type of the handler, and the name of the parameter. -/
  variant : Text
  isOptional : Bool
  /-- A comma follows. -/
  isFollowed : Bool
deriving DecidableEq, Repr

/-- The call of a handler. -/
structure Call where
  handler : Text
  argument : Text
deriving DecidableEq, Repr

/-- A test for a variant, with the call on the line below it. -/
structure Branch where
  /-- The words that introduce the test. -/
  keyword : Text
  variant : Text
  binding : Text
  call : Option Call
deriving DecidableEq, Repr

/-- How the type of a handler begins. -/
def delegateStart : Match → Text
  | result => "Func<"
  | action => "Action<"

/-- How the type of a handler ends, behind the type of its argument. -/
def delegateEnd : Match → Text
  | result => ", T>"
  | action => ">"

/-- Read a parameter that is named like the argument type of its handler. -/
def parameterIn? (method : Match) (line : Text) : Option Parameter := do
  let typed ← Text.after? (.cat ["      ", method.delegateStart]) line
  let parts ← Text.splitAt? (.cat [method.delegateEnd, " "]) typed
  let ending ← Text.after? parts.1 parts.2
  let isOptional := Text.startsWith " = null" ending
  let rest := if isOptional then ending.drop 7 else ending
  if rest = [] then
    some ⟨parts.1, isOptional, false⟩
  else if rest = [','] then
    some ⟨parts.1, isOptional, true⟩
  else
    none

/-- Read a call that is made if the handler is not null. -/
def guardedCall? (start guard ending line : Text) : Option Call := do
  let guarded ← Text.after? start line
  let parts ← Text.splitAt? guard guarded
  let argument ← Text.between? (.cat [parts.1, "("]) ending parts.2
  some ⟨parts.1, argument⟩

/-- Read the call of a handler. -/
def callIn? (method : Match) (line : Text) : Option Call :=
  match method with
  | result => guardedCall? "      return " " != null ? " ") : default(T);" line
  | action => guardedCall? "      if (" " != null) " ");" line

/-- Read a test that the keyword introduces, at any indentation. -/
def testAfter? (keyword line : Text) : Option (Text × Text) := do
  let tested ← Text.between? (.cat [keyword, " (this is "]) ") \x7b" (Text.trimStart line)
  Text.splitAt? " " tested

/-- Read a test: its keyword, the variant and the variable that holds it. -/
def testIn? (line : Text) : Option (Text × Text × Text) :=
  ((testAfter? "if" line).map fun tested => ("if".toList, tested)) <|>
    (testAfter? "\x7d else if" line).map fun tested => ("\x7d else if".toList, tested)

/-- The branches among some lines, each with the call on the line below its test. -/
def branchesIn (method : Match) : List Text → List Branch
  | [] => []
  | line :: rest =>
      match testIn? line with
      | some (keyword, variant, binding) =>
          ⟨keyword, variant, binding, rest.head?.bind method.callIn?⟩ :: branchesIn method rest
      | none => branchesIn method rest

/-- The line between the parameters of a method and its body. -/
def parametersEnd : Text :=
  "  ) \x7b"

/-- The lines of a method's parameters. -/
def parameterLines (lines : List Text) : List Text :=
  (lines.drop 1).takeWhile (· ≠ parametersEnd)

/--
Where an instance of a class is dispatched: the position of the parameter whose
handler is called, and the variable that is passed to it.  The first branch that
tests for the class decides, and a name means the first parameter that bears it.
-/
def dispatch? (method : Match) (lines : List Text) (className : Text) : Option (Nat × Text) := do
  let branch ← (method.branchesIn lines).find? (·.variant = className)
  let call ← branch.call
  let position ←
    ((parameterLines lines).map method.parameterIn?).findIdx?
      (·.any (·.variant = call.handler))
  some (position, call.argument)

/-! ## Parameters -/

/-- A parameter is read back from its line. -/
theorem parameterIn?_handler
    (method : Match)
    {name : Text}
    (isWord : Text.IsWord name)
    (allowNulls isFollowed : Bool) :
    method.parameterIn?
        (.cat [method.handler allowNulls name, if isFollowed then ",".toList else []]) =
      some ⟨name, allowNulls, isFollowed⟩ := by
  have spelled (null comma : Text) :
      Text.cat [.cat ["      ", method.delegate name, " ", name, null], comma] =
        .cat ["      ", method.delegateStart] ++
          (name ++ (.cat [method.delegateEnd, " "] ++ (name ++ (null ++ comma)))) := by
    have delegate :
        method.delegate name = .cat [method.delegateStart, name, method.delegateEnd] := by
      cases method <;> rfl
    simp only [delegate, Text.cat, List.flatten_cons, List.flatten_nil, List.append_nil,
      List.append_assoc]
  have hasBlank : (Text.cat [method.delegateEnd, " "]).any Text.isBlank = true := by
    cases method <;> decide
  rw [handler, spelled, parameterIn?]
  simp only [Text.after?_append, Text.splitAt?_of_word isWord hasBlank, Option.bind_eq_bind,
    Option.bind_some]
  cases allowNulls <;> cases isFollowed <;> rfl

/-- Every line but the last one gets a comma. -/
theorem withCommas_eq (group : List Text) (start : Nat) :
    withCommas group =
      (group.zipIdx start).map fun entry =>
        .cat [entry.1, if entry.2 + 1 < start + group.length then ",".toList else []] := by
  fun_induction withCommas group generalizing start with
  | case1 => rfl
  | case2 line => simp [Text.cat]
  | case3 line rest nonempty induction =>
      have more : 0 < rest.length := List.length_pos_iff.mpr nonempty
      rw [List.zipIdx_cons, List.map_cons, induction (start + 1), List.length_cons,
        if_pos (by omega), Nat.add_right_comm start 1 rest.length]
      rfl

/-- The parameters of a method are read back from its lines. -/
theorem map_parameterIn?_withCommas
    (method : Match)
    {names : List Text}
    (worded : ∀ name ∈ names, Text.IsWord name)
    (allowNulls : Bool) :
    (withCommas (names.map (method.handler allowNulls))).map method.parameterIn? =
      names.zipIdx.map fun entry =>
        some ⟨entry.1, allowNulls, decide (entry.2 + 1 < names.length)⟩ := by
  rw [withCommas_eq _ 0, List.zipIdx_map, List.map_map, List.map_map]
  apply List.map_congr_left
  intro entry member
  have isWord := worded entry.1 (List.fst_mem_of_mem_zipIdx member)
  have read := parameterIn?_handler method isWord allowNulls (decide (entry.2 + 1 < names.length))
  simp only [decide_eq_true_eq] at read
  simpa only [Function.comp, Prod.map, id, List.length_map, Nat.zero_add] using read

theorem parameterLines_member (method : Match) (schema : Schema) :
    parameterLines (method.headerLine :: method.innerLines schema) =
      withCommas (schema.variantNames.map (method.handler schema.allowNulls)) := by
  have shape :
      method.innerLines schema =
        withCommas (schema.variantNames.map (method.handler schema.allowNulls)) ++
          parametersEnd :: (method.chainLines schema.variantNames ++ method.fallbackLines) := by
    simp only [innerLines, parametersEnd, Text.stack, List.flatten_cons, List.flatten_nil,
      List.append_nil, List.cons_append, List.nil_append]
  have unended :
      parametersEnd ∉ withCommas (schema.variantNames.map (method.handler schema.allowNulls)) := by
    intro member
    rcases exists_of_mem_withCommas member with ⟨text, textMember, ending, -, same⟩
    rcases List.mem_map.mp textMember with ⟨name, -, rfl⟩
    have third := congrArg (·[2]?) same
    cases third
  rw [parameterLines, List.drop_one, List.tail_cons, shape, takeWhile_ne_append unended]

/-! ## Tests and calls -/

theorem trimStart_indented
    {indent rest : Text}
    (blank : indent.all Text.isBlank = true)
    (visible : Text.startsWord rest = true) :
    Text.trimStart (indent ++ rest) = rest := by
  rw [Text.trimStart, List.dropWhile_append_of_pos (List.all_eq_true.mp blank)]
  cases rest with
  | nil => cases visible
  | cons character rest =>
      apply List.dropWhile_cons_of_neg
      simpa [Text.startsWord] using visible

/-- The keyword that introduces the test with the given index. -/
def keyword (index : Nat) : Text :=
  if index = 0 then "if" else "\x7d else if"

theorem startsWord_keyword (index : Nat) (rest : Text) :
    Text.startsWord (keyword index ++ rest) = true := by
  unfold keyword
  split <;> rfl

theorem trimStart_testLine (name : Text) (index : Nat) :
    Text.trimStart (testLine name index) =
      .cat [keyword index, " (this is "] ++
        ((name ++ (" ".toList ++ binding index)) ++ ") \x7b".toList) := by
  have spelled :
      testLine name index =
        "    ".toList ++
          (keyword index ++
            (" (this is ".toList ++
              (name ++ (" ".toList ++ (binding index ++ ") \x7b".toList))))) := by
    simp only [testLine, keyword, Text.cat, List.flatten_cons, List.flatten_nil, List.append_nil]
  rw [spelled, trimStart_indented (by decide) (startsWord_keyword index _)]
  simp only [Text.cat, List.flatten_cons, List.flatten_nil, List.append_nil, List.append_assoc]

theorem testAfter?_testLine
    {name : Text}
    (isWord : Text.IsWord name)
    (index : Nat) :
    testAfter? (keyword index) (testLine name index) = some (name, binding index) := by
  have tested :
      Text.between? (.cat [keyword index, " (this is "]) ") \x7b"
          (Text.trimStart (testLine name index)) =
        some (name ++ (" ".toList ++ binding index)) :=
    Text.between?_eq_some_iff.mpr (trimStart_testLine name index)
  rw [testAfter?, tested]
  exact Text.splitAt?_of_word isWord (by decide) _

/-- A test is read back from its line. -/
theorem testIn?_testLine
    {name : Text}
    (isWord : Text.IsWord name)
    (index : Nat) :
    testIn? (testLine name index) = some (keyword index, name, binding index) := by
  have read := testAfter?_testLine isWord index
  cases index with
  | zero =>
      rw [testIn?, show "if".toList = keyword 0 from rfl, read]
      rfl
  | succ index =>
      have notFirst : testAfter? "if" (testLine name (index + 1)) = none := by
        rw [testAfter?, Text.between?_eq_none_of_start]
        · rfl
        · rw [trimStart_testLine]
          rintro ⟨rest, same⟩
          exact absurd (List.cons.inj same).1 (by decide)
      rw [testIn?, notFirst, show "\x7d else if".toList = keyword (index + 1) from rfl, read]
      rfl

/-- A call is read back from its line. -/
theorem callIn?_callLine
    (method : Match)
    {name : Text}
    (isWord : Text.IsWord name)
    (index : Nat) :
    method.callIn? (method.callLine name index) = some ⟨name, binding index⟩ := by
  have read
      {start guard ending : Text}
      (hasBlank : guard.any Text.isBlank = true) :
      guardedCall? start guard ending
          (.cat [start, name, guard, name, "(", binding index, ending]) =
        some ⟨name, binding index⟩ := by
    have spelled :
        Text.cat [start, name, guard, name, "(", binding index, ending] =
          start ++ (name ++ (guard ++ (.cat [name, "("] ++ (binding index ++ ending)))) := by
      simp only [Text.cat, List.flatten_cons, List.flatten_nil, List.append_nil,
        List.append_assoc]
    rw [spelled, guardedCall?]
    simp only [Text.after?_append, Text.splitAt?_of_word isWord hasBlank, Option.bind_eq_bind,
      Option.bind_some, Text.between?_append]
  cases method with
  | result => exact read (by decide)
  | action => exact read (by decide)

theorem testAfter?_eq_none
    {keyword line : Text}
    (otherStart : ¬ Text.cat [keyword, " (this is "] <+: Text.trimStart line) :
    testAfter? keyword line = none := by
  rw [testAfter?, Text.between?_eq_none_of_start otherStart]
  rfl

/-- A line is no test if its first visible character begins no keyword. -/
theorem testIn?_of_head
    {line : Text}
    {character : Char}
    (head : (Text.trimStart line).head? = some character)
    (noIf : character ≠ 'i')
    (noElse : character ≠ '}') :
    testIn? line = none := by
  rcases List.head?_eq_some_iff.mp head with ⟨rest, trimmed⟩
  have first : testAfter? "if" line = none := by
    apply testAfter?_eq_none
    rw [trimmed]
    rintro ⟨more, same⟩
    exact noIf (List.cons.inj same).1.symm
  have later : testAfter? "\x7d else if" line = none := by
    apply testAfter?_eq_none
    rw [trimmed]
    rintro ⟨more, same⟩
    exact noElse (List.cons.inj same).1.symm
  rw [testIn?, first, later]
  rfl

/-- The call below a test is no test, although it may begin with a condition. -/
theorem testIn?_callLine
    (method : Match)
    {name : Text}
    (isWord : Text.IsWord name)
    (index : Nat) :
    testIn? (method.callLine name index) = none := by
  cases method with
  | result => exact testIn?_of_head rfl (by decide) (by decide)
  | action =>
      have trimmed :
          Text.trimStart (callLine .action name index) =
            "if (".toList ++
              (name ++ ' ' :: ("!= null) ".toList ++
                (name ++ ("(".toList ++ (binding index ++ ");".toList))))) := by
        have start : "      if (".toList = "      ".toList ++ "if (".toList := rfl
        have guard : " != null) ".toList = ' ' :: "!= null) ".toList := rfl
        simp only [callLine, Text.cat, List.flatten_cons, List.flatten_nil, List.append_nil,
          start, guard, List.append_assoc, List.cons_append]
        exact trimStart_indented (by decide) rfl
      have first : testAfter? "if" (callLine .action name index) = none := by
        apply testAfter?_eq_none
        rw [trimmed]
        rintro ⟨rest, same⟩
        have start :
            Text.cat ["if", " (this is "] = "if (".toList ++ ("this".toList ++ " is ".toList) :=
          rfl
        rw [start, List.append_assoc, List.append_assoc] at same
        -- the word behind the parenthesis is `this` in a test, and `!=` follows it in the call
        have isThis : Text.IsWord "this" := by decide
        have behind := (isThis.append_space_inj isWord (List.append_cancel_left same)).2
        exact absurd (List.cons.inj behind).1 (by decide)
      have later : testAfter? "\x7d else if" (callLine .action name index) = none := by
        apply testAfter?_eq_none
        rw [trimmed]
        rintro ⟨rest, same⟩
        exact absurd (List.cons.inj same).1 (by decide)
      rw [testIn?, first, later]
      rfl

/-! ## The branches of a method -/

theorem branchesIn_append
    (method : Match)
    {group : List Text}
    (untested : ∀ line ∈ group, testIn? line = none)
    (rest : List Text) :
    method.branchesIn (group ++ rest) = method.branchesIn rest := by
  induction group with
  | nil => rfl
  | cons line group induction =>
      rw [List.cons_append, branchesIn, untested line List.mem_cons_self,
        induction fun other member => untested other (List.mem_cons_of_mem _ member)]

/-- The branch for a variant at its index. -/
def branchFor (entry : Text × Nat) : Branch :=
  ⟨keyword entry.2, entry.1, binding entry.2, some ⟨entry.1, binding entry.2⟩⟩

/-- One branch is read from a test and the call below it. -/
theorem branchesIn_branchLines
    (method : Match)
    {entry : Text × Nat}
    (isWord : Text.IsWord entry.1)
    (rest : List Text) :
    method.branchesIn (method.branchLines entry ++ rest) =
      branchFor entry :: method.branchesIn rest := by
  have call := testIn?_callLine method isWord entry.2
  rw [branchLines, List.cons_append, branchesIn, testIn?_testLine isWord]
  simp only [List.cons_append, List.nil_append, List.head?_cons, Option.bind_some,
    callIn?_callLine method isWord, branchesIn, call]
  rfl

/-- The chain of tests has one branch for each variant. -/
theorem branchesIn_flatMap
    (method : Match)
    {entries : List (Text × Nat)}
    (worded : ∀ entry ∈ entries, Text.IsWord entry.1)
    (rest : List Text) :
    method.branchesIn (entries.flatMap method.branchLines ++ rest) =
      entries.map branchFor ++ method.branchesIn rest := by
  induction entries with
  | nil => rfl
  | cons entry entries induction =>
      rw [List.flatMap_cons, List.append_assoc,
        branchesIn_branchLines method (worded entry List.mem_cons_self),
        induction fun other member => worded other (List.mem_cons_of_mem _ member)]
      rfl

/-- No other line of a method is read as a test. -/
theorem branchesIn_member
    (method : Match)
    {schema : Schema}
    (worded : schema.IsWorded) :
    method.branchesIn (method.headerLine :: method.innerLines schema) =
      schema.variantNames.zipIdx.map branchFor := by
  have shape :
      method.headerLine :: method.innerLines schema =
        (method.headerLine ::
            withCommas (schema.variantNames.map (method.handler schema.allowNulls)) ++
              [parametersEnd]) ++
          (schema.variantNames.zipIdx.flatMap method.branchLines ++
            ((if schema.variantNames.isEmpty then [] else ["    \x7d".toList]) ++
              method.fallbackLines)) := by
    simp only [innerLines, chainLines_eq, parametersEnd, Text.stack, List.flatten_cons,
      List.flatten_nil, List.append_nil, List.cons_append, List.nil_append, List.append_assoc]
  have above :
      ∀ line ∈ method.headerLine ::
          withCommas (schema.variantNames.map (method.handler schema.allowNulls)) ++
            [parametersEnd],
        testIn? line = none := by
    intro line member
    simp only [List.cons_append, List.mem_cons, List.mem_append, List.not_mem_nil,
      or_false] at member
    rcases member with rfl | handler | rfl
    · cases method <;> decide
    · rcases exists_of_mem_withCommas handler with ⟨text, textMember, ending, -, rfl⟩
      rcases List.mem_map.mp textMember with ⟨name, -, rfl⟩
      cases method <;> exact testIn?_of_head rfl (by decide) (by decide)
    · decide
  have below :
      ∀ line ∈ (if schema.variantNames.isEmpty then [] else ["    \x7d".toList]) ++
          method.fallbackLines,
        testIn? line = none := by
    cases method <;> cases schema.variantNames.isEmpty <;> decide
  have entryWorded : ∀ entry ∈ schema.variantNames.zipIdx, Text.IsWord entry.1 :=
    fun entry member => worded.variantNames entry.1 (List.fst_mem_of_mem_zipIdx member)
  rw [shape, branchesIn_append method above, branchesIn_flatMap method entryWorded,
    ← List.append_nil (_ ++ method.fallbackLines), branchesIn_append method below]
  exact List.append_nil _

theorem binding_injective : Function.Injective binding :=
  fun _ _ same => Text.ofNat_injective (List.cons.inj same).2

/-! ## Dispatch -/

section

variable (method : Match) {schema : Schema} {name : Text}

/-- The parameter with a name is found where the variant with the name stands. -/
theorem findIdx?_parameters (allowNulls : Bool) (names : List Text) :
    (names.zipIdx.map fun entry =>
        some (Parameter.mk entry.1 allowNulls (decide (entry.2 + 1 < names.length)))).findIdx?
        (·.any (·.variant = name)) =
      names.findIdx? (· = name) := by
  have ofNames :
      names.findIdx? (· = name) = (names.zipIdx.map Prod.fst).findIdx? (· = name) := by
    rw [List.zipIdx_map_fst]
  rw [ofNames, List.findIdx?_map, List.findIdx?_map]
  rfl

/-- An instance reaches the handler of the first variant with the name of its class. -/
theorem dispatch?_of_first
    (worded : schema.IsWorded)
    {earlier later : List Text}
    (split : schema.variantNames = earlier ++ name :: later)
    (isFirst : name ∉ earlier) :
    method.dispatch? (method.headerLine :: method.innerLines schema) name =
      some (earlier.length, binding earlier.length) := by
  have branch :
      (schema.variantNames.zipIdx.map branchFor).find? (·.variant = name) =
        some (branchFor (name, earlier.length)) := by
    rw [List.find?_map]
    exact congrArg (Option.map branchFor) (find?_zipIdx_of_first split isFirst)
  rw [dispatch?, branchesIn_member method worded, parameterLines_member,
    map_parameterIn?_withCommas method worded.variantNames, branch]
  simp only [Option.bind_eq_bind, Option.bind_some, branchFor, findIdx?_parameters,
    findIdx?_of_first split isFirst]

/-- An instance of any other class is left to the fallback. -/
theorem dispatch?_of_not_mem
    (worded : schema.IsWorded)
    (absent : name ∉ schema.variantNames) :
    method.dispatch? (method.headerLine :: method.innerLines schema) name = none := by
  have noBranch : (schema.variantNames.zipIdx.map branchFor).find? (·.variant = name) = none := by
    rw [List.find?_eq_none]
    intro branch member same
    rcases List.mem_map.mp member with ⟨entry, entryMember, rfl⟩
    exact absent (of_decide_eq_true same ▸ List.fst_mem_of_mem_zipIdx entryMember)
  rw [dispatch?, branchesIn_member method worded, noBranch]
  rfl

end

end TaggedUnion.Artifact.Match

namespace TaggedUnion.Artifact

/--
Both match methods of an artifact dispatch completely and in order.  Each occurs
once.  It has one parameter for each variant, named for it, with a comma after all
but the last one and a default on all of them or none.  Its tests are one for each
variant in order, only the first of them introduced without `else`, each with a
variable of its own and followed by the call of the handler with that variable.

So an instance of a variant's class goes to the handler of the first variant with
that name, which is the variant itself if names are unique, and an instance of any
other class to none.
-/
theorem match_methods_dispatch
    {document : List Text}
    {schema : Schema}
    {diagnostics : List Diagnostic}
    (completed : Reading.ofLines document = .completed schema diagnostics)
    (settings : Settings)
    {source : Option Text}
    (singleLine : ∀ name ∈ source, Text.BreakFree name)
    (method : Match) :
    let code := remainingLines schema (Generator.render settings source schema)
    let names := schema.variantNames
    ∃ lines,
      members method.opens code = [lines] ∧
        (Match.parameterLines lines).map method.parameterIn? =
          (names.zipIdx.map fun entry =>
            some ⟨entry.1, schema.allowNulls, decide (entry.2 + 1 < names.length)⟩) ∧
        method.branchesIn lines =
          (names.zipIdx.map fun entry =>
            { keyword := if entry.2 = 0 then "if" else "\x7d else if"
              variant := entry.1
              binding := 's' :: Text.ofNat entry.2
              call := some ⟨entry.1, 's' :: Text.ofNat entry.2⟩ }) ∧
        ((method.branchesIn lines).map (·.binding)).Nodup ∧
        (∀ index name,
          names[index]? = some name →
            ∃ least,
              names[least]? = some name ∧
                (∀ earlier, earlier < least → names[earlier]? ≠ some name) ∧
                method.dispatch? lines name = some (least, 's' :: Text.ofNat least) ∧
                (names.Nodup → least = index)) ∧
        (∀ name, name ∉ names → method.dispatch? lines name = none) ∧
        (schema.variants = [] → method.branchesIn lines = []) := by
  intro code names
  have worded := Reading.isWorded_of_completed completed
  have isRemark := isRemark_of_mem_remark settings singleLine
  have branches := Match.branchesIn_member method worded
  refine ⟨method.headerLine :: method.innerLines schema, ?_, ?_, branches, ?_, ?_, ?_, ?_⟩
  · rw [show code = _ from remainingLines_render worded isRemark]
    exact members_opens method isRemark
  · rw [Match.parameterLines_member]
    exact Match.map_parameterIn?_withCommas method worded.variantNames _
  · have bindings :
        (schema.variantNames.zipIdx.map Match.branchFor).map (·.binding) =
          (schema.variantNames.zipIdx.map Prod.snd).map Match.binding := by
      rw [List.map_map, List.map_map]
      rfl
    rw [branches, bindings, List.zipIdx_map_snd]
    exact List.Nodup.map Match.binding_injective List.nodup_range'
  · intro index name found
    rcases List.eq_append_cons_of_mem (List.mem_of_getElem? found) with
      ⟨earlier, later, split, isFirst⟩
    have here : names[earlier.length]? = some name := by
      rw [split, List.getElem?_append_right (Nat.le_refl _), Nat.sub_self]
      rfl
    refine ⟨earlier.length, here, ?_, Match.dispatch?_of_first method worded split isFirst, ?_⟩
    · intro position before same
      rw [split, List.getElem?_append_left before] at same
      exact isFirst (List.mem_of_getElem? same)
    · intro unique
      have inside : earlier.length < names.length := (List.getElem?_eq_some_iff.mp here).1
      exact (List.getElem?_inj inside unique).mp (here.trans found.symm)
  · intro name absent
    exact Match.dispatch?_of_not_mem method worded absent
  · intro empty
    rw [branches, Schema.variantNames, empty]
    rfl

/-- A document with a variant whose calls look like tests, and with two variants of one name. -/
def repeatingDocument : List Text :=
  ["Set AllowNulls", "Union \x7b", "this \x7b", "\x7d", "A( \x7b", "\x7d", "A( \x7b", "\x7d",
    "\x7d"]

/-- The schema of the document. -/
def repeatingSchema : Schema where
  name := "Union"
  allowNulls := true
  variants := [⟨"this", []⟩, ⟨"A(", []⟩, ⟨"A(", []⟩]

/-- An instance of the third variant goes to the handler of the second, which has its name. -/
theorem dispatch_repeatingSchema :
    (∃ diagnostics, Reading.ofLines repeatingDocument = .completed repeatingSchema diagnostics) ∧
      ∃ lines,
        members (Match.opens .action)
            (remainingLines repeatingSchema (Generator.render {} none repeatingSchema)) =
          [lines] ∧
          Match.dispatch? .action lines "A(" = some (1, "s1".toList) := by
  have completed :
      Reading.ofLines repeatingDocument =
        .completed repeatingSchema (Reading.ofLines repeatingDocument).diagnostics := by
    decide +kernel
  have singleLine : ∀ name ∈ (none : Option Text), Text.BreakFree name := by
    decide
  rcases match_methods_dispatch completed {} singleLine .action with
    ⟨lines, read, -, -, -, dispatched, -, -⟩
  rcases dispatched 2 "A(" rfl with ⟨least, found, isLeast, reached, -⟩
  have atMostOne : least ≤ 1 := by
    by_contra beyond
    exact isLeast 1 (by omega) rfl
  have notZero : least ≠ 0 := by
    rintro rfl
    exact absurd found (by decide)
  have isOne : least = 1 := by omega
  rw [isOne] at reached
  exact ⟨⟨_, completed⟩, lines, read, reached⟩

end TaggedUnion.Artifact
