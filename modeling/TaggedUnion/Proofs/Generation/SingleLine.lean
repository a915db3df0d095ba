import TaggedUnion.Artifact.Check
import TaggedUnion.Proofs.Document.Remarks
import TaggedUnion.Proofs.Document.Vocabulary
import TaggedUnion.Proofs.Generation.Judgement

/-!
# Remarks are single lines

A remark quotes its document: the name of the schema, the names of variants and the
line that it is about.  The fault of an artifact also lists names that were found in the
artifact, which may be any text at all.  None of this brings a line break with it, so
what is told on one document never looks like two remarks.

Names are words, and words hold no blank.  The lines of a document that is one text were
cut at its breaks.  What is found in an artifact is quoted, and quoting escapes every
character that ends a line.
-/

namespace TaggedUnion

namespace Text

/-! ## Quoted text and numbers -/

/-- A character that ends a line does not stand for itself in quoted text. -/
theorem isPrintable_of_isLineBreak
    {character : Char}
    (breaks : isLineBreak character = true) :
    isPrintable character = false := by
  have classified :
      character.toNat < 0x20 ∨ character.toNat = 0x85 ∨ character.toNat = 0x2028 ∨
        character.toNat = 0x2029 := by
    simp only [isLineBreak, Bool.or_eq_true, Bool.and_eq_true, decide_eq_true_eq,
      beq_iff_eq] at breaks
    omega
  have separator (code : Char) (same : character.toNat = code.toNat) : character = code :=
    Char.toNat_inj.mp same
  rcases classified with control | nextLine | lineSeparator | paragraphSeparator
  · rw [isPrintable, if_pos (Nat.lt_trans control (by decide)), decide_eq_false_iff_not]
    exact Nat.not_le.mpr control
  · rw [separator '\x85' nextLine]
    decide +kernel
  · rw [separator '\u2028' lineSeparator]
    decide +kernel
  · rw [separator '\u2029' paragraphSeparator]
    decide +kernel

theorem breakFree_hexadecimal (code : Nat) : BreakFree (Nat.toDigits 16 code) := by
  have digit : ∀ value < 16, BreakFree [Nat.digitChar value] := by decide
  induction code using Nat.strongRecOn with
  | ind code ih =>
      rcases Nat.lt_or_ge code 16 with small | large
      · rw [Nat.toDigits_of_lt_base small]
        exact digit code small
      · rw [Nat.toDigits_of_base_le (by decide) large, breakFree_append]
        exact ⟨ih _ (Nat.div_lt_self (by omega) (by decide)), digit _ (Nat.mod_lt _ (by decide))⟩

theorem breakFree_hexCode (width code : Nat) : BreakFree (hexCode width code) := by
  rw [hexCode, breakFree_append]
  refine ⟨fun character member => ?_, breakFree_hexadecimal code⟩
  rw [List.eq_of_mem_replicate member]
  decide

/-- Whatever a character is, it is written without a break between marks that are none. -/
theorem breakFree_escaped
    {mark : Char}
    (isMark : isLineBreak mark = false)
    (character : Char) :
    BreakFree (escaped mark character) := by
  have backslash : isLineBreak '\\' = false := by decide
  have escapedCode (letter : Char) (letterFree : isLineBreak letter = false) (width : Nat) :
      BreakFree ('\\' :: letter :: hexCode width character.toNat) := by
    rw [breakFree_cons, breakFree_cons]
    exact ⟨backslash, letterFree, breakFree_hexCode width _⟩
  simp only [escaped]
  split_ifs with itself newline carriageReturn tab printable short middle
  · rw [breakFree_cons, breakFree_cons]
    rcases itself with rfl | rfl
    · exact ⟨backslash, isMark, breakFree_nil⟩
    · exact ⟨backslash, backslash, breakFree_nil⟩
  · decide
  · decide
  · decide
  · rw [breakFree_cons]
    refine ⟨?_, breakFree_nil⟩
    by_contra breaks
    rw [isPrintable_of_isLineBreak ((Bool.not_eq_false _).mp breaks)] at printable
    cases printable
  · exact escapedCode 'x' (by decide) 2
  · exact escapedCode 'u' (by decide) 4
  · exact escapedCode 'U' (by decide) 8

/-- Quoted text stands on one line, whatever is quoted. -/
theorem breakFree_quote (text : Text) : BreakFree (quote text) := by
  have isMark : isLineBreak (quoteMark text) = false := by
    unfold quoteMark
    split <;> decide
  rw [quote, List.cons_append, breakFree_cons, breakFree_append]
  refine ⟨isMark, ?_, (breakFree_cons _ _).mpr ⟨isMark, breakFree_nil⟩⟩
  intro character member
  rcases List.mem_flatMap.mp member with ⟨quoted, -, inEscaped⟩
  exact breakFree_escaped isMark quoted character inEscaped

theorem breakFree_quoteList (texts : List Text) : BreakFree (quoteList texts) := by
  have joined : BreakFree (joinWith ", " (texts.map quote)) := by
    refine isClosed_breakFree.joinWith (by decide) fun piece member => ?_
    rcases List.mem_map.mp member with ⟨text, -, rfl⟩
    exact breakFree_quote text
  rw [quoteList, breakFree_cat_cons, breakFree_cat_cons, breakFree_cat_cons]
  exact ⟨by decide, joined, by decide, breakFree_cat_nil⟩

theorem breakFree_ofInt (number : Int) : BreakFree (ofInt number) := by
  cases number with
  | ofNat number => exact (isWord_ofNat number).breakFree
  | negSucc number =>
      rw [ofInt, breakFree_cons]
      exact ⟨by decide, (isWord_ofNat _).breakFree⟩

end Text

/-! ## Remarks without breaks -/

namespace Diagnostic

/-- No part of a remark holds a line break. -/
structure IsUnbroken (remark : Diagnostic) : Prop where
  code : Text.BreakFree remark.code
  message : Text.BreakFree remark.message
  line : Text.BreakFree (remark.line.getD [])
  source : Text.BreakFree (remark.source.getD [])

variable {remark : Diagnostic}

theorem IsUnbroken.withSource
    (unbroken : remark.IsUnbroken)
    {source : Text}
    (free : Text.BreakFree source) :
    (remark.withSource source).IsUnbroken :=
  ⟨unbroken.code, unbroken.message, unbroken.line, free⟩

theorem IsUnbroken.breakFree_location (unbroken : remark.IsUnbroken) :
    Text.BreakFree remark.location := by
  unfold location
  cases remark.lineNumber with
  | none => exact unbroken.source
  | some number =>
      have digits := Text.breakFree_ofInt number
      simp only
      split
      · rw [Text.breakFree_cat_cons, Text.breakFree_cat_cons]
        exact ⟨by decide, digits, Text.breakFree_cat_nil⟩
      · rw [Text.breakFree_cat_cons, Text.breakFree_cat_cons, Text.breakFree_cat_cons]
        exact ⟨unbroken.source, by decide, digits, Text.breakFree_cat_nil⟩

/-- A remark is told on one line if none of its parts is broken. -/
theorem IsUnbroken.breakFree_format (unbroken : remark.IsUnbroken) :
    Text.BreakFree remark.format := by
  unfold format
  refine Text.isClosed_breakFree.cat ?_
  simp only [List.forall_mem_cons, List.not_mem_nil, false_imp_iff, implies_true, and_true]
  refine ⟨?_, by decide, unbroken.code, by decide, unbroken.message, ?_⟩
  · split
    · exact Text.breakFree_nil
    · rw [Text.breakFree_cat_cons, Text.breakFree_cat_cons]
      exact ⟨unbroken.breakFree_location, by decide, Text.breakFree_cat_nil⟩
  · split
    · exact Text.breakFree_nil
    · rw [Text.breakFree_cat_cons, Text.breakFree_cat_cons]
      exact ⟨by decide, unbroken.line, Text.breakFree_cat_nil⟩

end Diagnostic

/-! ## Remarks of readings -/

section

variable {line : ContentLine} {name : Text}

theorem Progress.isUnbroken_unknownDirective (free : Text.BreakFree line.text) :
    (unknownDirective line).IsUnbroken where
  code := (by decide : Text.BreakFree "UnknownTopLevelDirective")
  message := (by decide : Text.BreakFree "Unknown command")
  line := free
  source := Text.breakFree_nil

theorem Progress.isUnbroken_completion (free : Text.BreakFree name) :
    (completion name line).IsUnbroken where
  code := (by decide : Text.BreakFree "ParsingCompleted")
  message := by
    rw [completion, Text.breakFree_cat_cons, Text.breakFree_cat_cons]
    exact ⟨by decide, free, Text.breakFree_cat_nil⟩
  line := Text.breakFree_nil
  source := Text.breakFree_nil

theorem Progress.isUnbroken_ignoredLines
    (nameFree : Text.BreakFree name)
    (free : Text.BreakFree line.text)
    (count : Nat) :
    (ignoredLines name line count).IsUnbroken where
  code := (by decide : Text.BreakFree "StructuralError")
  message := by
    rw [ignoredLines, Text.breakFree_cat_cons, Text.breakFree_cat_cons, Text.breakFree_cat_cons,
      Text.breakFree_cat_cons]
    exact ⟨by decide, (Text.isWord_ofNat count).breakFree, by decide, nameFree,
      Text.breakFree_cat_nil⟩
  line := free
  source := Text.breakFree_nil

theorem LineFault.breakFree_code (fault : LineFault) : Text.BreakFree fault.code := by
  have structural : Text.BreakFree "StructuralError" := by decide
  have arity : Text.BreakFree "FieldArityError" := by decide
  cases fault with
  | openedTooDeep | openedUnnamed | closedTooOften => exact structural
  | wordCount found => exact arity
  | missingType => exact arity

theorem LineFault.breakFree_message (fault : LineFault) : Text.BreakFree fault.message := by
  cases fault with
  | openedTooDeep | openedUnnamed | closedTooOften | missingType => decide +kernel
  | wordCount found =>
      refine (Text.breakFree_cat_cons _ _).mpr ⟨by decide +kernel, ?_⟩
      refine (Text.breakFree_cat_cons _ _).mpr ⟨?_, Text.breakFree_cat_nil⟩
      exact (Text.isWord_ofNat found).breakFree

/-- What a rejection quotes: the line where it was noticed, or the name of the open block. -/
def Rejection.quoted : Rejection → Text
  | atLine line _ => line.text
  | noBlock => []
  | unclosed name => name

theorem Rejection.isUnbroken_diagnostic
    {rejection : Rejection}
    (free : Text.BreakFree rejection.quoted) :
    rejection.diagnostic.IsUnbroken := by
  have structural : Text.BreakFree "StructuralError" := by decide
  cases rejection with
  | atLine line fault =>
      exact ⟨fault.breakFree_code, fault.breakFree_message, free, Text.breakFree_nil⟩
  | noBlock =>
      have told : Text.BreakFree "no schema block found" := by decide
      exact ⟨structural, told, Text.breakFree_nil, Text.breakFree_nil⟩
  | unclosed name =>
      have told : Text.BreakFree (.cat ["unclosed \x7b bracket for ", name]) := by
        rw [Text.breakFree_cat_cons, Text.breakFree_cat_cons]
        exact ⟨by decide, free, Text.breakFree_cat_nil⟩
      exact ⟨structural, told, Text.breakFree_nil, Text.breakFree_nil⟩

end

namespace Reading

variable {lines : List Text}

/-- A block that is not closed is named by a word. -/
theorem isWord_of_unclosed
    {earlier : List Diagnostic}
    {name : Text}
    (aborted : ofLines lines = .aborted earlier (.unclosed name)) :
    Text.IsWord name := by
  rw [ofLines, Progress.read_eq_run] at aborted
  cases runs : Progress.run {} (ContentLine.ofLines lines) with
  | error reading =>
      rcases Progress.run_eq_error runs with ⟨_, _, _, _, _, -, -, -, rfl⟩
      rw [runs] at aborted
      cases aborted
  | ok last =>
      rw [runs] at aborted
      have traces := Outline.traces_run (fun line => ContentLine.startsWord_of_mem_ofLines) runs
      rcases last with ⟨scope, schema, diagnostics⟩
      cases scope with
      | directives | finished | ignoring first count => cases aborted
      | body =>
          rcases traces with ⟨opened, -, rfl⟩
          cases aborted
          exact opened.opening.isWord_name
      | variant current =>
          rcases traces with ⟨_, opening, _, -, rfl, -⟩
          cases aborted
          exact opening.isWord_name

variable (free : ∀ raw ∈ lines, Text.BreakFree raw)

include free

theorem breakFree_content
    {line : ContentLine}
    (member : line ∈ ContentLine.ofLines lines) :
    Text.BreakFree line.text := by
  rcases ContentLine.exists_raw_of_mem_ofLines member with ⟨above, raw, below, rfl, rfl⟩
  exact (free raw (by simp)).of_subset fun _ => Text.mem_of_mem_trim

theorem breakFree_quoted
    {earlier : List Diagnostic}
    {rejection : Rejection}
    (aborted : ofLines lines = .aborted earlier rejection) :
    Text.BreakFree rejection.quoted := by
  cases rejection with
  | noBlock => exact Text.breakFree_nil
  | unclosed name => exact (isWord_of_unclosed aborted).breakFree
  | atLine line fault =>
      rcases (earlier_of_aborted aborted).2 with atEnd | ⟨before, _, after, _, split, same, -⟩
      · exact atEnd.elim
      · cases same
        exact breakFree_content free (by simp [split])

theorem isUnbroken_unknown :
    ∀ remark ∈ (ContentLine.unknown (ContentLine.ofLines lines)).map ContentLine.unknownRemark,
      remark.IsUnbroken := by
  intro remark member
  rcases List.mem_map.mp member with ⟨line, inUnknown, rfl⟩
  have inContent := (ContentLine.unknown_sublist _).subset inUnknown
  exact Progress.isUnbroken_unknownDirective (breakFree_content free inContent)

/-- Lines without breaks get remarks without breaks. -/
theorem isUnbroken_of_mem :
    ∀ remark ∈ (ofLines lines).diagnostics, remark.IsUnbroken := by
  cases read : ofLines lines with
  | aborted earlier rejection =>
      rw [diagnostics, (earlier_of_aborted read).1, List.forall_mem_append,
        List.forall_mem_singleton]
      exact ⟨isUnbroken_unknown free, Rejection.isUnbroken_diagnostic (breakFree_quoted free read)⟩
  | completed schema remarks =>
      have nameFree := (isWorded_of_completed read).name.breakFree
      rcases diagnostics_of_completed read with ⟨before, closing, after, split, -, -, rfl⟩
      rw [diagnostics, List.forall_mem_append, List.forall_mem_cons]
      refine ⟨isUnbroken_unknown free, Progress.isUnbroken_completion nameFree, ?_⟩
      cases after with
      | nil => exact List.forall_mem_nil _
      | cons first more =>
          rw [Progress.trailing, List.forall_mem_singleton]
          exact Progress.isUnbroken_ignoredLines nameFree (breakFree_content free (by simp [split]))
            _

end Reading

/-! ## Remarks of rules -/

/-- A name is told to be repeated only if a variant bears it. -/
theorem Condition.mem_variantNames_of_repeated
    {condition : Condition}
    {schema : Schema}
    {name : Text}
    {count : Nat}
    (found : .repeatedVariant name count ∈ condition.violations schema) :
    name ∈ schema.variantNames := by
  cases condition with
  | hasVariants =>
      rw [violations] at found
      split at found <;> simp at found
  | distinctVariants =>
      rcases List.mem_map.mp found with ⟨repeated, inRepeated, same⟩
      cases same
      have often := ((areRepeated_repeatedNames schema.variantNames).mem_iff name).mp inRepeated
      exact List.count_pos_iff.mp (Nat.lt_of_lt_of_le Nat.zero_lt_two often)

theorem Rule.isUnbroken_of_mem_checkAll
    {schema : Schema}
    (worded : schema.IsWorded)
    (rules : List Rule) :
    ∀ remark ∈ checkAll rules schema, remark.IsUnbroken := by
  intro remark member
  rcases List.mem_flatMap.mp member with ⟨rule, -, inRule⟩
  rw [check_eq_map] at inRule
  rcases List.mem_map.mp inRule with ⟨violation, found, rfl⟩
  have nameFree := worded.name.breakFree
  have messageFree : Text.BreakFree (violation.message schema.name) := by
    cases violation with
    | noVariants =>
        rw [Violation.message, Text.breakFree_cat_cons, Text.breakFree_cat_cons]
        exact ⟨nameFree, by decide, Text.breakFree_cat_nil⟩
    | repeatedVariant name count =>
        have isWord := worded.variantNames name (Condition.mem_variantNames_of_repeated found)
        rw [Violation.message]
        simp only [Text.breakFree_cat_cons]
        exact ⟨by decide, isWord.breakFree, by decide, (Text.isWord_ofNat count).breakFree,
          by decide, nameFree, Text.breakFree_cat_nil⟩
  exact ⟨(by decide : Text.BreakFree "SchemaValidationError"), messageFree, Text.breakFree_nil,
    Text.breakFree_nil⟩

/-- A generator repeats the remarks of the reading and adds those of its rules. -/
theorem Generator.mem_diagnostics
    {generator : Generator}
    {source : Option Text}
    {lines : List Text}
    {generation : Generation}
    (generated : generator.ofLines source lines = .ok generation)
    {remark : Diagnostic}
    (member : remark ∈ generation.diagnostics) :
    remark ∈ (Reading.ofLines lines).diagnostics ∨
      ∃ schema earlier,
        Reading.ofLines lines = .completed schema earlier ∧
          remark ∈ Rule.checkAll generator.rules schema := by
  rw [ofLines] at generated
  generalize Reading.ofLines lines = reading at generated ⊢
  cases reading with
  | aborted earlier rejection =>
      cases generated
      exact Or.inl member
  | completed schema earlier =>
      have told : generation.diagnostics = earlier ++ Rule.checkAll generator.rules schema := by
        rcases ofReading_completed_cases generated with ⟨first, -, rfl⟩ | ⟨name, -, -, rfl⟩
        · rfl
        · rfl
      rw [told] at member
      rcases List.mem_append.mp member with ofReading | ofRules
      · exact Or.inl ofReading
      · exact Or.inr ⟨schema, earlier, rfl, ofRules⟩

/-! ## Faults of artifacts -/

namespace Artifact

/-- A fault names the schema, or lists what is declared in place of its variants. -/
theorem fault_of_check
    {schema : Schema}
    {content : Text}
    {fault : Fault}
    (failed : check schema content = .error fault) :
    fault = .missingFixedRegion schema.name ∨
      fault = .missingBaseClass schema.name ∨
      (∃ declared, fault = .wrongVariants declared schema.variantNames) ∨
      fault = .unbalanced schema.name := by
  unfold check at failed
  split at failed
  · cases failed
    exact Or.inl rfl
  · simp only [checkCode] at failed
    split_ifs at failed <;> cases failed
    · exact Or.inr (Or.inl rfl)
    · exact Or.inr (Or.inr (Or.inl ⟨_, rfl⟩))
    · exact Or.inr (Or.inr (Or.inr rfl))

theorem breakFree_message_of_check
    {schema : Schema}
    (nameFree : Text.BreakFree schema.name)
    {content : Text}
    {fault : Fault}
    (failed : check schema content = .error fault) :
    Text.BreakFree fault.message := by
  rcases fault_of_check failed with rfl | rfl | ⟨declared, rfl⟩ | rfl
  · simp only [Fault.message, Text.breakFree_cat_cons]
    exact ⟨by decide, nameFree, by decide, Text.breakFree_cat_nil⟩
  · simp only [Fault.message, Text.breakFree_cat_cons]
    exact ⟨by decide, nameFree, Text.breakFree_cat_nil⟩
  · simp only [Fault.message, Text.breakFree_cat_cons]
    exact ⟨by decide, Text.breakFree_quoteList declared, by decide, Text.breakFree_quoteList _,
      Text.breakFree_cat_nil⟩
  · simp only [Fault.message, Text.breakFree_cat_cons]
    exact ⟨by decide, nameFree, by decide, Text.breakFree_cat_nil⟩

end Artifact

namespace Generator

/--
Every remark on a document that is one text is told on a single line, also as a remark on
a source whose name is a single line; and so is every fault that any content has as the
artifact of the document's schema.
-/
theorem remarks_are_single_lines
    (generator : Generator)
    {extension : Text}
    (textual : generator.settings.outputExtension = .text extension)
    (origin : Option Text)
    (text : Text)
    {source : Text}
    (sourceFree : Text.BreakFree source) :
    (∃ generation,
        generator.ofText origin text = .ok generation ∧
          ∀ remark ∈ generation.diagnostics,
            Text.BreakFree remark.format ∧ Text.BreakFree (remark.withSource source).format) ∧
      ∀ schema earlier,
        Reading.ofText text = .completed schema earlier →
          ∀ content fault,
            Artifact.check schema content = .error fault → Text.BreakFree fault.message := by
  have linesFree : ∀ raw ∈ Text.lines text, Text.BreakFree raw :=
    fun raw => Text.breakFree_of_mem_lines
  constructor
  · rcases exists_generation generator textual origin (Text.lines text) with
      ⟨generation, generated⟩
    refine ⟨generation, generated, fun remark member => ?_⟩
    have unbroken : remark.IsUnbroken := by
      rcases mem_diagnostics generated member with ofReading | ⟨schema, earlier, read, ofRules⟩
      · exact Reading.isUnbroken_of_mem linesFree remark ofReading
      · exact Rule.isUnbroken_of_mem_checkAll (Reading.isWorded_of_completed read) _ remark ofRules
    exact ⟨unbroken.breakFree_format, (unbroken.withSource sourceFree).breakFree_format⟩
  · intro schema earlier read content fault failed
    have worded := Reading.isWorded_of_completed read
    exact Artifact.breakFree_message_of_check worded.name.breakFree failed

/-- A text that uses most of the characters that end a line, between lines of all kinds. -/
def forgingText : Text :=
  "Fake:\u2028Set Foo\x85 A \x7b\x0bV \x7b\x0c\x7d\x1dV \x7b\r\n\x7d\r\x7d\u2029tail: \x7b x"

/-- The schema of that text. -/
def forgingSchema : Schema where
  name := "A"
  variants := [⟨"V", []⟩, ⟨"V", []⟩]

/-- Content that declares a variant whose name is an invisible character. -/
def forgedContent : Text :=
  "\npublic abstract class A \x7b\n  public sealed class \u200b : A \x7b\n"

/-- Five remarks and the fault of a forged artifact are single lines. -/
theorem remarks_of_forgingText :
    Text.BreakFree "d/a b.adtValue" ∧
      (∃ generation,
        (make {} none).ofText none forgingText = .ok generation ∧
          generation.diagnostics.length = 5 ∧
          ∀ remark ∈ generation.diagnostics,
            Text.BreakFree remark.format ∧
              Text.BreakFree (remark.withSource "d/a b.adtValue").format) ∧
      ∃ earlier fault,
        Reading.ofText forgingText = .completed forgingSchema earlier ∧
          Artifact.check forgingSchema forgedContent = .error fault ∧
          fault.message = "Artifact declares variants ['\\u200b'], expected ['V', 'V']" ∧
          Text.BreakFree fault.message := by
  have sourceFree : Text.BreakFree "d/a b.adtValue" := by decide
  have completed :
      Reading.ofText forgingText =
        .completed forgingSchema (Reading.ofText forgingText).diagnostics := by
    decide +kernel
  have counted :
      ((make {} none).ofText none forgingText).toOption.map (·.diagnostics.length) = some 5 := by
    decide +kernel
  have failed :
      Artifact.check forgingSchema forgedContent =
        .error (.wrongVariants ["\u200b"] ["V", "V"]) := by
    decide +kernel
  rcases remarks_are_single_lines (make {} none) rfl none forgingText sourceFree with
    ⟨⟨generation, generated, unbroken⟩, faults⟩
  rw [generated] at counted
  refine ⟨sourceFree, ⟨generation, generated, Option.some.inj counted, unbroken⟩, _, _, completed,
    failed, by decide +kernel, faults _ _ completed _ _ failed⟩

end Generator

end TaggedUnion
