import TaggedUnion.Proofs.Document.Grammar
import TaggedUnion.Proofs.Text.Lines

/-!
# The vocabulary of a schema

A schema mentions texts in fixed places: its name, the names of its variants,
and the types and names of fields.  `Schema.Each` says that all of them have a
property.

The names and types of a schema that was read from a document are words.  Its
fixed lines are any text that a line can hold; when the document is one text,
they are free of breaks.
-/

namespace TaggedUnion

/-! ## Properties of every word -/

/-- The type and the name of a field have a property. -/
structure Field.Each (property : Text → Prop) (field : Field) : Prop where
  type : property field.type
  name : property field.name

/-- The name of a variant has a property, and so have the words of its fields. -/
structure Variant.Each (property : Text → Prop) (variant : Variant) : Prop where
  name : property variant.name
  fields : ∀ field ∈ variant.fields, field.Each property

/-- All names and types of a schema have a property. -/
structure Schema.Each (property : Text → Prop) (schema : Schema) : Prop where
  name : property schema.name
  baseFields : ∀ field ∈ schema.baseFields, field.Each property
  defaultFields : ∀ field ∈ schema.defaultFields, field.Each property
  variants : ∀ variant ∈ schema.variants, variant.Each property

section

variable {property weaker : Text → Prop} {schema : Schema}

theorem Schema.Each.sharedFields (each : schema.Each property) :
    ∀ field ∈ schema.sharedFields, field.Each property := by
  intro field member
  rcases List.mem_append.mp member with base | default
  · exact each.baseFields field base
  · exact each.defaultFields field default

theorem Schema.Each.variantNames (each : schema.Each property) :
    ∀ name ∈ schema.variantNames, property name := by
  intro name member
  obtain ⟨variant, variantMember, rfl⟩ := List.mem_map.mp member
  exact (each.variants variant variantMember).name

theorem Field.Each.imp
    {field : Field}
    (each : field.Each property)
    (implies : ∀ {word}, property word → weaker word) :
    field.Each weaker :=
  ⟨implies each.type, implies each.name⟩

theorem Variant.Each.imp
    {variant : Variant}
    (each : variant.Each property)
    (implies : ∀ {word}, property word → weaker word) :
    variant.Each weaker :=
  ⟨implies each.name, fun field member => (each.fields field member).imp implies⟩

theorem Schema.Each.imp
    (each : schema.Each property)
    (implies : ∀ {word}, property word → weaker word) :
    schema.Each weaker :=
  ⟨implies each.name,
    fun field member => (each.baseFields field member).imp implies,
    fun field member => (each.defaultFields field member).imp implies,
    fun variant member => (each.variants variant member).imp implies⟩

end

/-! ## Words read from documents -/

/-- The type and the name of a field are words. -/
abbrev Field.IsWorded (field : Field) : Prop :=
  field.Each Text.IsWord

/-- The name of a variant is a word, and so are the types and names of its fields. -/
abbrev Variant.IsWorded (variant : Variant) : Prop :=
  variant.Each Text.IsWord

/-- All names and types of a schema are words. -/
abbrev Schema.IsWorded (schema : Schema) : Prop :=
  schema.Each Text.IsWord

theorem Field.declaration_eq (field : Field) :
    field.declaration = field.type ++ ' ' :: field.name := by
  simp [declaration, Text.cat]

/-- A declared field is spelled by two words. -/
theorem Field.Each.words_declaration
    {field : Field}
    (worded : field.IsWorded) :
    Text.words field.declaration = [field.type, field.name] := by
  rw [field.declaration_eq, Text.words_append_blank (by decide),
    Text.words_of_isWord worded.type, Text.words_of_isWord worded.name]
  rfl

namespace Outline

theorem OpeningLine.isWord_name (line : OpeningLine) : Text.IsWord line.name := by
  obtain ⟨next, more, named⟩ := line.named
  apply Text.isWord_of_mem_words
  rw [named]
  exact List.mem_cons_self

theorem FieldLine.isWorded (line : FieldLine) : line.field.IsWorded := by
  have isWord {word : Text} (member : word ∈ [line.field.type, line.field.name]) :
      Text.IsWord word :=
    Text.isWord_of_mem_words (line.spelled.symm ▸ member)
  exact ⟨isWord (by simp), isWord (by simp)⟩

theorem Item.isWorded_baseField?
    {item : Item}
    {field : Field}
    (declared : item.baseField? = some field) :
    field.IsWorded := by
  cases item with
  | fixed line marked => simp [baseField?] at declared
  | block opening fields closing => simp [baseField?] at declared
  | member line unmarked typed =>
      simp only [baseField?] at declared
      split at declared
      · cases declared
      · obtain rfl := Option.some.inj declared
        exact line.isWorded

theorem Item.isWorded_defaultField?
    {item : Item}
    {field : Field}
    (declared : item.defaultField? = some field) :
    field.IsWorded := by
  cases item with
  | fixed line marked => simp [defaultField?] at declared
  | block opening fields closing => simp [defaultField?] at declared
  | member line unmarked typed =>
      simp only [defaultField?] at declared
      split at declared
      · rename_i type typeIs
        obtain rfl := Option.some.inj declared
        refine ⟨?_, line.isWorded.name⟩
        have nonempty : type ≠ [] := by
          rintro rfl
          exact typed typeIs
        exact (typeIs ▸ line.isWorded.type).tail nonempty
      · cases declared

theorem Item.isWorded_variant?
    {item : Item}
    {variant : Variant}
    (declared : item.variant? = some variant) :
    variant.IsWorded := by
  cases item with
  | fixed line marked => simp [variant?] at declared
  | member line unmarked typed => simp [variant?] at declared
  | block opening fields closing =>
      obtain rfl := Option.some.inj declared
      refine ⟨opening.isWord_name, ?_⟩
      intro field member
      obtain ⟨line, -, rfl⟩ := List.mem_map.mp member
      exact line.isWorded

/-- The schema that an outline denotes is made of words. -/
theorem isWorded_schema (outline : Outline) : outline.schema.IsWorded where
  name := outline.opening.isWord_name
  baseFields := by
    intro field member
    obtain ⟨item, -, declared⟩ := List.mem_filterMap.mp member
    exact Item.isWorded_baseField? declared
  defaultFields := by
    intro field member
    obtain ⟨item, -, declared⟩ := List.mem_filterMap.mp member
    exact Item.isWorded_defaultField? declared
  variants := by
    intro variant member
    obtain ⟨item, -, declared⟩ := List.mem_filterMap.mp member
    exact Item.isWorded_variant? declared

/-- A fixed line of an outline's schema follows an ampersand in one of its lines. -/
theorem exists_line_of_mem_fixedLines
    {outline : Outline}
    {fixedLine : Text}
    (member : fixedLine ∈ outline.schema.fixedLines) :
    ∃ line ∈ outline.lines, fixedLine = line.tail := by
  obtain ⟨item, itemMember, declared⟩ := List.mem_filterMap.mp member
  cases item with
  | member line unmarked typed => simp [Item.fixedLine?] at declared
  | block opening fields closing => simp [Item.fixedLine?] at declared
  | fixed line marked =>
      refine ⟨line.text, ?_, (Option.some.inj declared).symm⟩
      have inItems : line.text ∈ outline.items.flatMap Item.lines :=
        List.mem_flatMap.mpr ⟨_, itemMember, by simp [Item.lines]⟩
      simp [lines, Opened.lines, inItems]

end Outline

namespace Reading

/-- A completed document has a schema made of words. -/
theorem isWorded_of_completed
    {lines : List Text}
    {schema : Schema}
    {diagnostics : List Diagnostic}
    (completed : ofLines lines = .completed schema diagnostics) :
    schema.IsWorded := by
  obtain ⟨outline, -, rfl⟩ := Outline.exists_outline_of_completed completed
  exact outline.isWorded_schema

/-- The fixed lines of a document held in one text are free of breaks. -/
theorem breakFree_fixedLines_of_completed
    {text : Text}
    {schema : Schema}
    {diagnostics : List Diagnostic}
    (completed : ofText text = .completed schema diagnostics) :
    ∀ line ∈ schema.fixedLines, Text.BreakFree line := by
  obtain ⟨outline, spelled, rfl⟩ := Outline.exists_outline_of_completed completed
  intro fixedLine member
  obtain ⟨line, lineMember, rfl⟩ := Outline.exists_line_of_mem_fixedLines member
  rw [spelled, ContentLine.texts] at lineMember
  obtain ⟨raw, rawMember, rfl⟩ := List.mem_map.mp (List.mem_filter.mp lineMember).1
  apply (Text.breakFree_of_mem_lines rawMember).of_subset
  intro character inTail
  exact Text.mem_of_mem_trim (List.mem_of_mem_tail inTail)

end Reading

end TaggedUnion
