import TaggedUnion.Proofs.Document.Vocabulary

/-!
# Canonical documents

Not every schema can be read from a document: a name that begins a line cannot
begin with a comment sign, the type of a demanded field cannot begin with the
mark of another kind of line, and no field can be named by a brace.
`Schema.IsWellFormed` lists these conditions without a word on reading.

The canonical document of a schema declares one thing a line.  It is read back
as the schema itself, without any remark but that on its completion, exactly
when the schema is well formed.  The well-formed schemas are therefore all the
schemas that documents have.
-/

namespace TaggedUnion

/-! ## Well-formed schemas -/

/-- The text is a single brace. -/
def Text.IsBrace (text : Text) : Prop :=
  text = ['{'] ∨ text = ['}']

/-- A line that can be copied: it ends neither in a blank nor in a brace that follows a blank. -/
structure Text.IsCopiable (line : Text) : Prop where
  endsVisibly : EndsVisibly line
  unmarked :
    ∀ before blank brace,
      isBlank blank = true → IsBrace [brace] → line ≠ before ++ [blank, brace]

/-- A variant whose block can be written down. -/
structure Variant.IsWellFormed (variant : Variant) : Prop where
  name : variant.name.head? ≠ some '#'
  types : ∀ field ∈ variant.fields, field.type.head? ≠ some '#'
  names : ∀ field ∈ variant.fields, ¬ Text.IsBrace field.name

/-- A schema that can be written down. -/
structure Schema.IsWellFormed (schema : Schema) : Prop where
  worded : schema.IsWorded
  name : schema.name.head? ≠ some '#'
  baseTypes :
    ∀ field ∈ schema.baseFields,
      field.type.head? ≠ some '#' ∧
        field.type.head? ≠ some '&' ∧
        field.type.head? ≠ some '%'
  sharedNames : ∀ field ∈ schema.sharedFields, ¬ Text.IsBrace field.name
  fixedLines : ∀ line ∈ schema.fixedLines, Text.IsCopiable line
  variants : ∀ variant ∈ schema.variants, variant.IsWellFormed

/-! ## The canonical document of a schema -/

/-- The line that opens the block with the given name. -/
def openingLine (name : Text) : Text :=
  .cat [name, " \x7b"]

/-- The block of a variant. -/
def Variant.blockLines (variant : Variant) : List Text :=
  Text.stack
    [[openingLine variant.name],
      variant.fields.map Field.declaration,
      ["\x7d"]]

namespace Schema

/-- The lines that set the flags of the schema. -/
def directiveLines (schema : Schema) : List Text :=
  Text.stack
    [if schema.allowNulls then ["Set AllowNulls"] else [],
      if schema.knownTypes then ["Set KnownTypes"] else []]

/-- What stands in the schema block. -/
def memberLines (schema : Schema) : List Text :=
  Text.stack
    [schema.baseFields.map Field.declaration,
      schema.defaultFields.map fun field => '%' :: field.declaration,
      schema.fixedLines.map fun line => '&' :: line,
      schema.variants.flatMap Variant.blockLines]

/-- The canonical document without its last line. -/
def openLines (schema : Schema) : List Text :=
  Text.stack [schema.directiveLines, [openingLine schema.name], schema.memberLines]

/-- The canonical document. -/
def canonicalLines (schema : Schema) : List Text :=
  Text.stack [schema.openLines, ["\x7d"]]

/-- The only remark on the canonical document: its last line completes it. -/
def canonicalRemark (schema : Schema) : Diagnostic where
  severity := .info
  code := "ParsingCompleted"
  message := .cat ["Parsing completed for ", schema.name]
  lineNumber := some schema.canonicalLines.length

end Schema

/-! ## Texts of content lines -/

namespace ContentLine

/-- A text that a content line can have. -/
structure IsText (text : Text) : Prop where
  starts : Text.startsWord text = true
  endsVisibly : Text.EndsVisibly text
  uncommented : text.head? ≠ some '#'

theorem IsText.isContent {text : Text} (isText : IsText text) : isContent text = true := by
  obtain ⟨starts, -, uncommented⟩ := isText
  cases text with
  | nil => simp [Text.startsWord] at starts
  | cons character rest => simpa [ContentLine.isContent] using uncommented

theorem isText_of_mem_texts
    {lines : List Text}
    {text : Text}
    (member : text ∈ texts lines) :
    IsText text := by
  obtain ⟨trimmed, content⟩ := List.mem_filter.mp member
  obtain ⟨raw, -, rfl⟩ := List.mem_map.mp trimmed
  have nonempty : Text.trim raw ≠ [] := by
    intro empty
    simp [empty, isContent] at content
  refine ⟨Text.startsWord_trim nonempty, Text.endsVisibly_trim raw, ?_⟩
  intro commented
  obtain ⟨rest, equal⟩ := List.head?_eq_some_iff.mp commented
  simp [equal, isContent] at content

/-- Lines that have nothing to be trimmed or skipped are their own content. -/
theorem texts_eq_self
    {lines : List Text}
    (areTexts : ∀ line ∈ lines, IsText line) :
    texts lines = lines := by
  have trimmed : lines.map Text.trim = lines := by
    calc
      lines.map Text.trim = lines.map id := by
        apply List.map_congr_left
        intro line member
        exact Text.trim_eq_self (areTexts line member).starts
          (areTexts line member).endsVisibly
      _ = lines := List.map_id lines
  rw [texts, trimmed, List.filter_eq_self]
  exact fun line member => (areTexts line member).isContent

/-- Two words with a blank between them are the text of a content line. -/
theorem isText_pair
    {first second : Text}
    (firstWord : Text.IsWord first)
    (uncommented : first.head? ≠ some '#')
    (secondWord : Text.IsWord second) :
    IsText (first ++ ' ' :: second) := by
  obtain ⟨character, rest, rfl⟩ := List.exists_cons_of_ne_nil firstWord.nonempty
  have visible := firstWord.blankFree character List.mem_cons_self
  refine ⟨by simp [Text.startsWord, visible], ?_, uncommented⟩
  simpa using secondWord.endsVisibly.append secondWord.nonempty (character :: rest ++ [' '])

end ContentLine

/-! ## What documents can declare -/

namespace Outline

open ContentLine (IsText)

theorem OpeningLine.uncommented_name
    (line : OpeningLine)
    (isText : IsText line.text) :
    line.name.head? ≠ some '#' := by
  obtain ⟨next, more, named⟩ := line.named
  rw [← Text.head?_eq_of_words isText.starts named]
  exact isText.uncommented

theorem FieldLine.head?_type
    (line : FieldLine)
    (isText : IsText line.text) :
    line.field.type.head? = line.text.head? :=
  (Text.head?_eq_of_words isText.starts line.spelled).symm

/-- A plain line does not end in a brace, so no field is named by one. -/
theorem FieldLine.not_isBrace_name (line : FieldLine) : ¬ Text.IsBrace line.field.name := by
  have final : (Text.words line.text).getLast? = some line.field.name := by
    rw [line.spelled]
    rfl
  rintro (opening | closing)
  · exact line.plain.1 (by rw [Opens, final, opening])
  · exact line.plain.2 (by rw [Closes, final, closing])

/-- A line that ends in a brace after a blank is not plain. -/
theorem not_isPlain_append_brace
    {blank brace : Char}
    (before : Text)
    (isBlank : Text.isBlank blank = true)
    (isBrace : Text.IsBrace [brace]) :
    ¬ IsPlain (before ++ [blank, brace]) := by
  have final {word : Text} (isWord : Text.IsWord word) :=
    Text.getLast?_words_append_blank isBlank before isWord
  rintro ⟨notOpens, notCloses⟩
  rcases isBrace with opening | closing
  · exact notOpens (by rw [opening, Opens, final (Text.isWord_singleton (by decide))])
  · exact notCloses (by rw [closing, Closes, final (Text.isWord_singleton (by decide))])

theorem isCopiable_tail
    {line : PlainLine}
    (marked : line.text.head? = some '&')
    (isText : IsText line.text) :
    Text.IsCopiable line.text.tail := by
  obtain ⟨copied, equal⟩ := List.head?_eq_some_iff.mp marked
  have plain := line.plain
  have ends := isText.endsVisibly
  rw [equal] at plain ends ⊢
  refine ⟨?_, ?_⟩
  · intro character final
    have nonempty : copied ≠ [] := by
      rintro rfl
      cases final
    exact ends character (by rwa [List.getLast?_cons_of_ne_nil nonempty])
  · rintro before blank brace isBlank isBrace rfl
    exact not_isPlain_append_brace ('&' :: before) isBlank isBrace plain

theorem Item.baseType_of_baseField?
    {item : Item}
    {field : Field}
    (areTexts : ∀ line ∈ item.lines, IsText line)
    (declared : item.baseField? = some field) :
    field.type.head? ≠ some '#' ∧
      field.type.head? ≠ some '&' ∧
      field.type.head? ≠ some '%' := by
  cases item with
  | fixed line marked => cases declared
  | block opening fields closing => cases declared
  | member line unmarked typed =>
      have isText := areTexts line.text List.mem_cons_self
      simp only [baseField?] at declared
      split at declared
      · cases declared
      · rename_i demanded
        obtain rfl := Option.some.inj declared
        refine ⟨?_, ?_, ?_⟩
        · rw [line.head?_type isText]
          exact isText.uncommented
        · rw [line.head?_type isText]
          exact unmarked
        · intro optional
          obtain ⟨type, equal⟩ := List.head?_eq_some_iff.mp optional
          exact demanded type equal

theorem Item.not_isBrace_name
    {item : Item}
    {field : Field}
    (declared : item.baseField? = some field ∨ item.defaultField? = some field) :
    ¬ Text.IsBrace field.name := by
  cases item with
  | fixed line marked => rcases declared with base | default <;> contradiction
  | block opening fields closing => rcases declared with base | default <;> contradiction
  | member line unmarked typed =>
      suffices named : field.name = line.field.name by
        rw [named]
        exact line.not_isBrace_name
      rcases declared with base | default
      · simp only [baseField?] at base
        split at base
        · cases base
        · rw [Option.some.inj base]
      · simp only [defaultField?] at default
        split at default
        · rw [← Option.some.inj default]
        · cases default

theorem Item.isWellFormed_variant?
    {item : Item}
    {variant : Variant}
    (areTexts : ∀ line ∈ item.lines, IsText line)
    (declared : item.variant? = some variant) :
    variant.IsWellFormed := by
  cases item with
  | fixed line marked => cases declared
  | member line unmarked typed => cases declared
  | block opening fields closing =>
      obtain rfl := Option.some.inj declared
      refine ⟨opening.uncommented_name (areTexts _ (by simp [lines])), ?_, ?_⟩
      · intro field member
        obtain ⟨line, lineMember, rfl⟩ := List.mem_map.mp member
        have isText : IsText line.text := by
          apply areTexts
          simpa [lines] using Or.inr (Or.inl ⟨line, lineMember, rfl⟩)
        rw [line.head?_type isText]
        exact isText.uncommented
      · intro field member
        obtain ⟨line, -, rfl⟩ := List.mem_map.mp member
        exact line.not_isBrace_name

theorem Item.isCopiable_fixedLine?
    {item : Item}
    {fixedLine : Text}
    (areTexts : ∀ line ∈ item.lines, IsText line)
    (declared : item.fixedLine? = some fixedLine) :
    Text.IsCopiable fixedLine := by
  cases item with
  | member line unmarked typed => cases declared
  | block opening fields closing => cases declared
  | fixed line marked =>
      obtain rfl := Option.some.inj declared
      exact isCopiable_tail marked (areTexts line.text List.mem_cons_self)

/-- An outline made of content denotes a well-formed schema. -/
theorem isWellFormed_schema
    {outline : Outline}
    (areTexts : ∀ line ∈ outline.lines, IsText line) :
    outline.schema.IsWellFormed := by
  have itemTexts {item : Item} (member : item ∈ outline.items) :
      ∀ line ∈ item.lines, IsText line := by
    intro line lineMember
    have inItems : line ∈ outline.items.flatMap Item.lines :=
      List.mem_flatMap.mpr ⟨item, member, lineMember⟩
    exact areTexts line (by simp [lines, Opened.lines, inItems])
  refine ⟨outline.isWorded_schema, ?_, ?_, ?_, ?_, ?_⟩
  · exact outline.opening.uncommented_name (areTexts _ (by simp [lines, Opened.lines]))
  · intro field member
    obtain ⟨item, itemMember, declared⟩ := List.mem_filterMap.mp member
    exact Item.baseType_of_baseField? (itemTexts itemMember) declared
  · intro field member
    rcases List.mem_append.mp member with base | default
    · obtain ⟨item, -, declared⟩ := List.mem_filterMap.mp base
      exact Item.not_isBrace_name (Or.inl declared)
    · obtain ⟨item, -, declared⟩ := List.mem_filterMap.mp default
      exact Item.not_isBrace_name (Or.inr declared)
  · intro line member
    obtain ⟨item, itemMember, declared⟩ := List.mem_filterMap.mp member
    exact Item.isCopiable_fixedLine? (itemTexts itemMember) declared
  · intro variant member
    obtain ⟨item, itemMember, declared⟩ := List.mem_filterMap.mp member
    exact Item.isWellFormed_variant? (itemTexts itemMember) declared

end Outline

theorem Reading.isWellFormed_of_completed
    {lines : List Text}
    {schema : Schema}
    {diagnostics : List Diagnostic}
    (completed : ofLines lines = .completed schema diagnostics) :
    schema.IsWellFormed := by
  obtain ⟨outline, spelled, rfl⟩ := Outline.exists_outline_of_completed completed
  apply Outline.isWellFormed_schema
  intro line member
  exact ContentLine.isText_of_mem_texts (spelled ▸ member)

/-! ## Lines of the canonical document -/

theorem openingLine_eq (name : Text) : openingLine name = name ++ ' ' :: ['{'] := by
  simp [openingLine, Text.cat]

namespace Outline

theorem isPlain_of_words
    {text type name : Text}
    (spelled : Text.words text = [type, name])
    (unbraced : ¬ Text.IsBrace name) :
    IsPlain text := by
  have final : (Text.words text).getLast? = some name := by
    rw [spelled]
    rfl
  refine ⟨?_, ?_⟩
  · intro opens
    rw [Opens, final] at opens
    exact unbraced (Or.inl (Option.some.inj opens))
  · intro closes
    rw [Closes, final] at closes
    exact unbraced (Or.inr (Option.some.inj closes))

/-- The line that declares a field. -/
def FieldLine.declaring
    (field : Field)
    (worded : field.IsWorded)
    (unbraced : ¬ Text.IsBrace field.name) :
    FieldLine where
  text := field.declaration
  field := field
  plain := isPlain_of_words worded.words_declaration unbraced
  spelled := worded.words_declaration

/-- The canonical line that opens a block. -/
def OpeningLine.naming (name : Text) (isWord : Text.IsWord name) : OpeningLine where
  text := openingLine name
  name := name
  opens := by
    rw [Opens, openingLine_eq,
      Text.getLast?_words_append_blank (by decide) _ (Text.isWord_singleton (by decide))]
  named := by
    refine ⟨['{'], [], ?_⟩
    rw [openingLine_eq, Text.words_append_blank (by decide), Text.words_of_isWord isWord]
    rfl

/-- The canonical line that closes a block. -/
def ClosingLine.bare : ClosingLine where
  text := "\x7d"
  closes := by
    rw [Closes]
    decide

/-- A line that can be copied is plain behind its ampersand. -/
theorem isPlain_fixed
    {line : Text}
    (copiable : Text.IsCopiable line) :
    IsPlain ('&' :: line) := by
  have ends : Text.EndsVisibly ('&' :: line) := copiable.endsVisibly.cons (by decide)
  -- A brace as last word would be the whole line, or it would follow a blank in what is copied.
  have unbraced {brace : Char} (isBrace : Text.IsBrace [brace])
      (final : (Text.words ('&' :: line)).getLast? = some [brace]) : False := by
    obtain ⟨word, isWord, equal | ⟨before, blank, isBlank, equal⟩⟩ :=
      Text.exists_lastWord ends (by simp)
    · rw [equal, Text.getLast?_words_of_isWord isWord, Option.some.injEq] at final
      rw [final] at equal
      obtain ⟨rfl, -⟩ := List.cons.inj equal
      rcases isBrace with opening | closing <;> contradiction
    · rw [equal, Text.getLast?_words_append_blank isBlank _ isWord,
        Option.some.injEq] at final
      rw [final] at equal
      cases before with
      | nil =>
          obtain ⟨rfl, -⟩ := List.cons.inj equal
          exact absurd isBlank (by decide)
      | cons first before =>
          obtain ⟨-, copied⟩ := List.cons.inj equal
          exact copiable.unmarked before blank brace isBlank isBrace copied
  exact ⟨unbraced (Or.inl rfl), unbraced (Or.inr rfl)⟩

/-! ## Items of the canonical document -/

theorem exists_item_baseField
    {field : Field}
    (worded : field.IsWorded)
    (unbraced : ¬ Text.IsBrace field.name)
    (unmarked : field.type.head? ≠ some '&')
    (demanded : field.type.head? ≠ some '%') :
    ∃ item : Item,
      item.lines = [field.declaration] ∧
        ∀ schema,
          item.addTo schema = { schema with baseFields := schema.baseFields ++ [field] } := by
  have heads : field.declaration.head? = field.type.head? := by
    obtain ⟨character, rest, equal⟩ := List.exists_cons_of_ne_nil worded.type.nonempty
    rw [field.declaration_eq, equal]
    rfl
  have typed : field.type ≠ ['%'] := by
    intro bare
    exact demanded (by rw [bare]; rfl)
  refine ⟨.member (.declaring field worded unbraced) (heads ▸ unmarked) typed, rfl, ?_⟩
  intro schema
  exact Item.addTo_member_base _ _ _ _ demanded

theorem exists_item_defaultField
    {field : Field}
    (worded : field.IsWorded)
    (unbraced : ¬ Text.IsBrace field.name) :
    ∃ item : Item,
      item.lines = ['%' :: field.declaration] ∧
        ∀ schema,
          item.addTo schema =
            { schema with defaultFields := schema.defaultFields ++ [field] } := by
  have markedWorded : (Field.mk ('%' :: field.type) field.name).IsWorded :=
    ⟨worded.type.cons (by decide), worded.name⟩
  have typed : '%' :: field.type ≠ ['%'] := by
    intro bare
    exact worded.type.nonempty (List.cons.inj bare).2
  refine ⟨.member (.declaring _ markedWorded unbraced) ?_ typed, rfl, ?_⟩
  · exact fun marked => absurd (Option.some.inj marked) (by decide)
  · intro schema
    exact Item.addTo_member_default _ _ _ _ rfl

theorem exists_item_fixedLine
    {line : Text}
    (copiable : Text.IsCopiable line) :
    ∃ item : Item,
      item.lines = ['&' :: line] ∧
        ∀ schema,
          item.addTo schema = { schema with fixedLines := schema.fixedLines ++ [line] } :=
  ⟨.fixed ⟨_, isPlain_fixed copiable⟩ rfl, rfl, fun schema => Item.addTo_fixed schema _ rfl⟩

theorem exists_item_variant
    {variant : Variant}
    (worded : variant.IsWorded)
    (wellFormed : variant.IsWellFormed) :
    ∃ item : Item,
      item.lines = variant.blockLines ∧
        ∀ schema,
          item.addTo schema = { schema with variants := schema.variants ++ [variant] } := by
  have spellable (field : Field) (member : field ∈ variant.fields) :
      field.IsWorded ∧ ¬ Text.IsBrace field.name :=
    ⟨worded.fields field member, wellFormed.names field member⟩
  let fields : List FieldLine :=
    variant.fields.pmap (fun field spelled => .declaring field spelled.1 spelled.2) spellable
  have texts : fields.map (·.text) = variant.fields.map Field.declaration := by
    rw [List.map_pmap]
    exact List.pmap_eq_map spellable
  have declared : fields.map (·.field) = variant.fields := by
    rw [List.map_pmap]
    exact (List.pmap_eq_map spellable).trans (List.map_id _)
  refine ⟨.block (.naming variant.name worded.name) fields .bare, ?_, ?_⟩
  · rw [Item.lines, texts]
    rfl
  · intro schema
    rw [Item.addTo_block, declared]
    rfl

end Outline

/-! ## Reading the canonical document -/

namespace Progress

/-- From one state, lines with the given texts lead to another, whatever their numbers are. -/
def Reads (progress : Progress) (texts : List Text) (next : Progress) : Prop :=
  ∀ lines : List ContentLine,
    lines.map (·.text) = texts →
    (∀ line ∈ lines, Text.startsWord line.text = true) →
    progress.run lines = .ok next

theorem reads_nil (progress : Progress) : progress.Reads [] progress := by
  intro lines spelled _
  obtain rfl := List.map_eq_nil_iff.mp spelled
  rfl

theorem Reads.append
    {progress middle last : Progress}
    {first second : List Text}
    (reads : progress.Reads first middle)
    (more : middle.Reads second last) :
    progress.Reads (first ++ second) last := by
  intro lines spelled starts
  obtain ⟨before, after, rfl, beforeSpelled, afterSpelled⟩ := List.map_eq_append_iff.mp spelled
  rw [run_append_of_run
    (reads before beforeSpelled fun line member => starts line (List.mem_append_left _ member))]
  exact more after afterSpelled fun line member => starts line (List.mem_append_right _ member)

theorem reads_singleton
    {progress next : Progress}
    {text : Text}
    (steps : ∀ line : ContentLine, line.text = text → progress.step line = .ok next) :
    progress.Reads [text] next := by
  intro lines spelled _
  obtain ⟨line, rfl, lineSpelled⟩ := List.map_eq_singleton_iff.mp spelled
  exact run_singleton_of_step (steps line lineSpelled)

theorem reads_allowNulls (schema : Schema) (diagnostics : List Diagnostic) :
    Reads ⟨.directives, schema, diagnostics⟩ ["Set AllowNulls"]
      ⟨.directives, { schema with allowNulls := true }, diagnostics⟩ := by
  apply reads_singleton
  intro line spelled
  have words : line.words = allowNullsDirective := by
    rw [ContentLine.words, spelled]
    decide
  have plain : line.marker = .plain := by
    rw [ContentLine.marker, words]
    rfl
  simp [step, plain, readDirective, words]

theorem reads_knownTypes (schema : Schema) (diagnostics : List Diagnostic) :
    Reads ⟨.directives, schema, diagnostics⟩ ["Set KnownTypes"]
      ⟨.directives, { schema with knownTypes := true }, diagnostics⟩ := by
  have distinct : knownTypesDirective ≠ allowNullsDirective := by decide
  apply reads_singleton
  intro line spelled
  have words : line.words = knownTypesDirective := by
    rw [ContentLine.words, spelled]
    decide
  have plain : line.marker = .plain := by
    rw [ContentLine.marker, words]
    rfl
  simp [step, plain, readDirective, words, distinct]

theorem reads_allowNulls_if (allowNulls : Bool) :
    Reads {} (if allowNulls then ["Set AllowNulls"] else [])
      ⟨.directives, { allowNulls }, []⟩ := by
  cases allowNulls with
  | false => exact reads_nil _
  | true => exact reads_allowNulls _ _

theorem reads_knownTypes_if (allowNulls knownTypes : Bool) :
    Reads ⟨.directives, { allowNulls }, []⟩ (if knownTypes then ["Set KnownTypes"] else [])
      ⟨.directives, { allowNulls, knownTypes }, []⟩ := by
  cases knownTypes with
  | false => exact reads_nil _
  | true => exact reads_knownTypes _ _

/-- The lines that set the flags of a schema set them and nothing else. -/
theorem reads_directiveLines (schema : Schema) :
    Reads {} schema.directiveLines
      ⟨.directives, { allowNulls := schema.allowNulls, knownTypes := schema.knownTypes }, []⟩ := by
  have both :=
    (reads_allowNulls_if schema.allowNulls).append
      (reads_knownTypes_if schema.allowNulls schema.knownTypes)
  rw [Schema.directiveLines, Text.stack, List.flatten_cons, List.flatten_cons, List.flatten_nil,
    List.append_nil]
  exact both

theorem reads_openingLine
    {name : Text}
    (isWord : Text.IsWord name)
    (schema : Schema)
    (diagnostics : List Diagnostic) :
    Reads ⟨.directives, schema, diagnostics⟩ [openingLine name]
      ⟨.body, { schema with name }, diagnostics⟩ := by
  apply reads_singleton
  intro line spelled
  exact (Outline.step_directives_eq_ok_iff _ _ _ _).mpr
    (Or.inr ⟨.naming name isWord, spelled.symm, rfl⟩)

/--
Where each element of a list is declared by an item, the lines of them all
declare the list.
-/
theorem reads_members
    {α : Type}
    (linesOf : α → List Text)
    (add : Schema → List α → Schema)
    (addNone : ∀ schema, add schema [] = schema)
    (addLast :
      ∀ schema before element,
        add schema (before ++ [element]) = add (add schema before) [element])
    {elements : List α}
    (declared :
      ∀ element ∈ elements,
        ∃ item : Outline.Item,
          item.lines = linesOf element ∧
            ∀ schema, item.addTo schema = add schema [element])
    (schema : Schema)
    (diagnostics : List Diagnostic) :
    Reads ⟨.body, schema, diagnostics⟩ (elements.flatMap linesOf)
      ⟨.body, add schema elements, diagnostics⟩ := by
  induction elements using List.reverseRecOn with
  | nil =>
      rw [addNone]
      exact reads_nil _
  | append_singleton before element induction =>
      obtain ⟨item, spelled, adds⟩ := declared element (by simp)
      have earlier :=
        induction fun other member => declared other (List.mem_append_left _ member)
      rw [List.flatMap_append, List.flatMap_singleton, addLast, ← adds, ← spelled]
      apply earlier.append
      intro lines linesSpelled starts
      exact Outline.run_item _ _ starts linesSpelled

/-- The lines of the schema block declare its members and nothing else. -/
theorem reads_memberLines
    {schema : Schema}
    (wellFormed : schema.IsWellFormed)
    {start : Schema}
    (bare : start = ⟨schema.name, schema.allowNulls, schema.knownTypes, [], [], [], []⟩) :
    Reads ⟨.body, start, []⟩ schema.memberLines ⟨.body, schema, []⟩ := by
  have worded := wellFormed.worded
  have base (start : Schema) :=
    reads_members (fun field : Field => [field.declaration])
      (fun schema fields => { schema with baseFields := schema.baseFields ++ fields })
      (by simp) (by simp)
      (fun field member =>
        Outline.exists_item_baseField (worded.baseFields field member)
          (wellFormed.sharedNames field (List.mem_append_left _ member))
          (wellFormed.baseTypes field member).2.1 (wellFormed.baseTypes field member).2.2)
      start []
  have default (start : Schema) :=
    reads_members (fun field : Field => ['%' :: field.declaration])
      (fun schema fields => { schema with defaultFields := schema.defaultFields ++ fields })
      (by simp) (by simp)
      (fun field member =>
        Outline.exists_item_defaultField (worded.defaultFields field member)
          (wellFormed.sharedNames field (List.mem_append_right _ member)))
      start []
  have fixed (start : Schema) :=
    reads_members (fun line : Text => ['&' :: line])
      (fun schema lines => { schema with fixedLines := schema.fixedLines ++ lines })
      (by simp) (by simp)
      (fun line member => Outline.exists_item_fixedLine (wellFormed.fixedLines line member))
      start []
  have variants (start : Schema) :=
    reads_members Variant.blockLines
      (fun schema variants => { schema with variants := schema.variants ++ variants })
      (by simp) (by simp)
      (fun variant member =>
        Outline.exists_item_variant (worded.variants variant member)
          (wellFormed.variants variant member))
      start []
  have whole :=
    (base start).append ((default _).append ((fixed _).append (variants _)))
  subst bare
  simpa [Schema.memberLines, Text.stack, List.map_eq_flatMap] using whole

/-- All lines of the canonical document but the last one lead to the schema, unremarked. -/
theorem reads_openLines
    {schema : Schema}
    (wellFormed : schema.IsWellFormed) :
    Reads {} schema.openLines ⟨.body, schema, []⟩ := by
  have whole :=
    (reads_directiveLines schema).append
      ((reads_openingLine wellFormed.worded.name _ []).append
        (reads_memberLines wellFormed rfl))
  rw [Schema.openLines, Text.stack, List.flatten_cons, List.flatten_cons, List.flatten_cons,
    List.flatten_nil, List.append_nil]
  exact whole

end Progress

namespace Schema

theorem canonicalLines_eq (schema : Schema) :
    schema.canonicalLines = schema.openLines ++ [("\x7d" : Text)] := by
  rw [canonicalLines, Text.stack, List.flatten_cons, List.flatten_cons, List.flatten_nil,
    List.append_nil]

/-- A property that each kind of canonical line has is one of all canonical lines. -/
theorem forall_mem_canonicalLines
    {schema : Schema}
    {property : Text → Prop}
    (allowNulls : property "Set AllowNulls")
    (knownTypes : property "Set KnownTypes")
    (opening : property (openingLine schema.name))
    (base : ∀ field ∈ schema.baseFields, property field.declaration)
    (default : ∀ field ∈ schema.defaultFields, property ('%' :: field.declaration))
    (fixed : ∀ line ∈ schema.fixedLines, property ('&' :: line))
    (variantOpening : ∀ variant ∈ schema.variants, property (openingLine variant.name))
    (variantFields :
      ∀ variant ∈ schema.variants, ∀ field ∈ variant.fields, property field.declaration)
    (closing : property "\x7d") :
    ∀ line ∈ schema.canonicalLines, property line := by
  intro line member
  simp only [canonicalLines, openLines, directiveLines, memberLines, Variant.blockLines,
    Text.stack, List.mem_flatten, List.mem_cons, List.not_mem_nil, or_false, exists_eq_or_imp,
    exists_eq_left, List.mem_map, List.mem_flatMap, List.mem_ite_nil_right] at member
  rcases member with
    ((⟨-, rfl⟩ | ⟨-, rfl⟩) | rfl |
      (⟨field, inBase, rfl⟩ | ⟨field, inDefault, rfl⟩ | ⟨copied, inFixed, rfl⟩ |
        ⟨variant, inVariants, (rfl | ⟨field, inFields, rfl⟩ | rfl)⟩)) | rfl
  · exact allowNulls
  · exact knownTypes
  · exact opening
  · exact base field inBase
  · exact default field inDefault
  · exact fixed copied inFixed
  · exact variantOpening variant inVariants
  · exact variantFields variant inVariants field inFields
  · exact closing
  · exact closing

open ContentLine (IsText isText_pair)

theorem IsWellFormed.isText_of_mem_canonicalLines
    {schema : Schema}
    (wellFormed : schema.IsWellFormed) :
    ∀ line ∈ schema.canonicalLines, IsText line := by
  have worded := wellFormed.worded
  have brace : Text.IsWord ['{'] := Text.isWord_singleton (by decide)
  have opens {name : Text} (isWord : Text.IsWord name) (uncommented : name.head? ≠ some '#') :
      IsText (openingLine name) :=
    openingLine_eq name ▸ isText_pair isWord uncommented brace
  have declares {field : Field} (worded : field.IsWorded)
      (uncommented : field.type.head? ≠ some '#') : IsText field.declaration :=
    field.declaration_eq ▸ isText_pair worded.type uncommented worded.name
  apply forall_mem_canonicalLines
  case allowNulls => exact ⟨by decide, by decide, by decide⟩
  case knownTypes => exact ⟨by decide, by decide, by decide⟩
  case opening => exact opens worded.name wellFormed.name
  case base =>
    intro field member
    exact declares (worded.baseFields field member) (wellFormed.baseTypes field member).1
  case default =>
    intro field member
    have fieldWorded := worded.defaultFields field member
    rw [field.declaration_eq]
    exact isText_pair (fieldWorded.type.cons (by decide)) (by simp) fieldWorded.name
  case fixed =>
    intro line member
    exact ⟨rfl, (wellFormed.fixedLines line member).endsVisibly.cons (by decide), by simp⟩
  case variantOpening =>
    intro variant member
    exact opens (worded.variants variant member).name (wellFormed.variants variant member).name
  case variantFields =>
    intro variant member field fieldMember
    exact declares ((worded.variants variant member).fields field fieldMember)
      ((wellFormed.variants variant member).types field fieldMember)
  case closing => exact ⟨by decide, by decide, by decide⟩

theorem IsWellFormed.breakFree_of_mem_canonicalLines
    {schema : Schema}
    (wellFormed : schema.IsWellFormed)
    (fixedLines : ∀ line ∈ schema.fixedLines, Text.BreakFree line) :
    ∀ line ∈ schema.canonicalLines, Text.BreakFree line := by
  have worded := wellFormed.worded.imp Text.IsWord.breakFree
  have opens {name : Text} (free : Text.BreakFree name) : Text.BreakFree (openingLine name) := by
    rw [openingLine_eq, Text.breakFree_append]
    exact ⟨free, by decide⟩
  have declares {field : Field} (free : field.Each Text.BreakFree) :
      Text.BreakFree field.declaration := by
    rw [field.declaration_eq, Text.breakFree_append, ← List.singleton_append,
      Text.breakFree_append]
    exact ⟨free.type, by decide, free.name⟩
  have marks {mark : Char} {line : Text} (ofMark : Text.BreakFree [mark])
      (free : Text.BreakFree line) : Text.BreakFree (mark :: line) := by
    rw [← List.singleton_append, Text.breakFree_append]
    exact ⟨ofMark, free⟩
  apply forall_mem_canonicalLines
  case allowNulls => decide
  case knownTypes => decide
  case opening => exact opens worded.name
  case base => exact fun field member => declares (worded.baseFields field member)
  case default =>
    exact fun field member => marks (by decide) (declares (worded.defaultFields field member))
  case fixed => exact fun line member => marks (by decide) (fixedLines line member)
  case variantOpening => exact fun variant member => opens (worded.variants variant member).name
  case variantFields =>
    exact fun variant member field fieldMember =>
      declares ((worded.variants variant member).fields field fieldMember)
  case closing => decide

end Schema

namespace Reading

theorem ofLines_canonicalLines
    {schema : Schema}
    (wellFormed : schema.IsWellFormed) :
    ofLines schema.canonicalLines = .completed schema [schema.canonicalRemark] := by
  have whole := schema.canonicalLines_eq
  have areTexts : ∀ line ∈ schema.openLines, ContentLine.IsText line := by
    intro line member
    apply wellFormed.isText_of_mem_canonicalLines
    rw [whole]
    exact List.mem_append_left _ member
  have spelled : (ContentLine.ofLines schema.openLines).map (·.text) = schema.openLines := by
    rw [ContentLine.map_text_ofLines, ContentLine.texts_eq_self areTexts]
  have opened :=
    Progress.reads_openLines wellFormed _ spelled
      fun line => ContentLine.startsWord_of_mem_ofLines
  have number : 1 + schema.openLines.length = schema.canonicalLines.length := by
    rw [whole, List.length_append, List.length_singleton, Nat.add_comm]
  have closes :
      Progress.step ⟨.body, schema, []⟩ ⟨schema.canonicalLines.length, "\x7d"⟩ =
        .ok ⟨.finished, schema, [schema.canonicalRemark]⟩ := by
    apply (Outline.step_body_eq_ok_iff _ _ rfl _).mpr
    exact Or.inr (Or.inr ⟨.bare, rfl, rfl⟩)
  calc
    ofLines schema.canonicalLines =
        Progress.read {}
          (ContentLine.ofLines schema.openLines ++
            [⟨schema.canonicalLines.length, "\x7d"⟩]) := by
      rw [ofLines, ContentLine.ofLines, whole, ContentLine.numberedFrom_concat _ _ (by decide),
        number, whole]
      rfl
    _ = Progress.read ⟨.body, schema, []⟩ [⟨schema.canonicalLines.length, "\x7d"⟩] :=
      Progress.read_append_of_run opened _
    _ = .completed schema [schema.canonicalRemark] := by
      rw [Progress.read, closes]
      rfl

theorem ofText_canonicalLines
    {schema : Schema}
    (wellFormed : schema.IsWellFormed)
    (fixedLines : ∀ line ∈ schema.fixedLines, Text.BreakFree line) :
    ofText (Text.unlines schema.canonicalLines) =
      .completed schema [schema.canonicalRemark] := by
  rw [ofText, Text.lines_unlines (wellFormed.breakFree_of_mem_canonicalLines fixedLines)]
  exact ofLines_canonicalLines wellFormed

/--
The schemas that lists of lines complete with are the well-formed ones, and
those that texts complete with are the ones among them whose fixed lines are
free of breaks.  In both cases the canonical document is one that does, and the
remark that it is complete is the only one on it.
-/
theorem completes_with_iff_isWellFormed (schema : Schema) :
    ((∃ lines diagnostics, ofLines lines = .completed schema diagnostics) ↔
        schema.IsWellFormed) ∧
      ((∃ text diagnostics, ofText text = .completed schema diagnostics) ↔
        schema.IsWellFormed ∧ ∀ line ∈ schema.fixedLines, Text.BreakFree line) ∧
      (ofLines schema.canonicalLines = .completed schema [schema.canonicalRemark] ↔
        schema.IsWellFormed) ∧
      (ofText (Text.unlines schema.canonicalLines) =
          .completed schema [schema.canonicalRemark] ↔
        schema.IsWellFormed ∧ ∀ line ∈ schema.fixedLines, Text.BreakFree line) := by
  have ofTextCompleted {text : Text} {diagnostics : List Diagnostic}
      (completed : ofText text = .completed schema diagnostics) :
      schema.IsWellFormed ∧ ∀ line ∈ schema.fixedLines, Text.BreakFree line :=
    ⟨isWellFormed_of_completed completed, breakFree_fixedLines_of_completed completed⟩
  refine ⟨⟨?_, ?_⟩, ⟨?_, ?_⟩, ⟨?_, ofLines_canonicalLines⟩, ⟨ofTextCompleted, ?_⟩⟩
  · rintro ⟨lines, diagnostics, completed⟩
    exact isWellFormed_of_completed completed
  · intro wellFormed
    exact ⟨_, _, ofLines_canonicalLines wellFormed⟩
  · rintro ⟨text, diagnostics, completed⟩
    exact ofTextCompleted completed
  · rintro ⟨wellFormed, fixedLines⟩
    exact ⟨_, _, ofText_canonicalLines wellFormed fixedLines⟩
  · exact isWellFormed_of_completed
  · rintro ⟨wellFormed, fixedLines⟩
    exact ofText_canonicalLines wellFormed fixedLines

example :
    Schema.canonicalLines
        { name := "Shape"
          allowNulls := true
          baseFields := [⟨"int", "id"⟩]
          defaultFields := [⟨"#string", "label"⟩]
          fixedLines := ["  // \x7d area"]
          variants := [⟨"%Point", []⟩, ⟨"Circle", [⟨"&float", "radius"⟩]⟩] } =
      ["Set AllowNulls", "Shape \x7b", "int id", "%#string label", "&  // \x7d area", "%Point \x7b",
        "\x7d", "Circle \x7b", "&float radius", "\x7d", "\x7d"] := by
  decide

end Reading

end TaggedUnion
