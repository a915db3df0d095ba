import TaggedUnion.Proofs.Document.Run

/-!
# Outlines of documents

An outline is the shape that the content of a document must have: plain lines
up to a named block, the items of that block, the line that closes it, and
whatever follows.  The items are fixed lines, fields and variant blocks.  An
outline denotes a schema, which is read off its parts without following the
order in which a document is read.

Reading completes exactly on the contents that have an outline, with the
schema that the outline denotes, and no content has two outlines.  In one
direction `Traces` ties every state of a run to the part of an outline that
has been read; in the other the parts of an outline are run one by one.
-/

namespace TaggedUnion

namespace Outline

/-! ## Kinds of lines -/

/-- The last word of the line is an opening brace. -/
def Opens (text : Text) : Prop :=
  (Text.words text).getLast? = some ['{']

/-- The last word of the line is a closing brace. -/
def Closes (text : Text) : Prop :=
  (Text.words text).getLast? = some ['}']

/-- The last word of the line is no brace. -/
def IsPlain (text : Text) : Prop :=
  ¬ Opens text ∧ ¬ Closes text

/-- A line that neither opens nor closes a block. -/
@[ext]
structure PlainLine where
  text : Text
  plain : IsPlain text

/-- A line that opens a block and begins with its name. -/
structure OpeningLine where
  text : Text
  name : Text
  opens : Opens text
  named : ∃ next more, Text.words text = name :: next :: more

/-- A line that closes a block. -/
@[ext]
structure ClosingLine where
  text : Text
  closes : Closes text

/-- A plain line of exactly two words, a type and a name. -/
structure FieldLine where
  text : Text
  field : Field
  plain : IsPlain text
  spelled : Text.words text = [field.type, field.name]

/-- The name of a block is determined by the line that opens it. -/
@[ext]
theorem OpeningLine.ext
    {left right : OpeningLine}
    (equal : left.text = right.text) :
    left = right := by
  obtain ⟨text, name, opens, next, more, named⟩ := left
  obtain ⟨_, otherName, _, otherNext, otherMore, otherNamed⟩ := right
  subst equal
  rw [named] at otherNamed
  obtain ⟨rfl, -⟩ := List.cons.inj otherNamed
  rfl

/-- A field is determined by its line. -/
@[ext]
theorem FieldLine.ext
    {left right : FieldLine}
    (equal : left.text = right.text) :
    left = right := by
  obtain ⟨text, ⟨type, name⟩, plain, spelled⟩ := left
  obtain ⟨_, ⟨otherType, otherName⟩, _, otherSpelled⟩ := right
  subst equal
  rw [spelled] at otherSpelled
  obtain ⟨rfl, rfl, -⟩ := by simpa using otherSpelled
  rfl

/-- What can stand in the schema block. -/
inductive Item where
  /-- A plain line that begins with an ampersand. -/
  | fixed (line : PlainLine) (marked : line.text.head? = some '&')
  /-- A field line that begins with no ampersand and whose type is no bare percent sign. -/
  | member
      (line : FieldLine)
      (unmarked : line.text.head? ≠ some '&')
      (typed : line.field.type ≠ ['%'])
  /-- The block of a variant, with the variant's fields. -/
  | block (opening : OpeningLine) (fields : List FieldLine) (closing : ClosingLine)

namespace Item

/-- The lines of an item. -/
def lines : Item → List Text
  | fixed line _ => [line.text]
  | member line _ _ => [line.text]
  | block opening fields closing =>
      opening.text :: fields.map (·.text) ++ [closing.text]

/-- The line that a fixed line is copied as: all but the ampersand. -/
def fixedLine? : Item → Option Text
  | fixed line _ => some line.text.tail
  | _ => none

/-- The demanded field that an item declares. -/
def baseField? : Item → Option Field
  | member line _ _ =>
      match line.field.type with
      | '%' :: _ => none
      | _ => some line.field
  | _ => none

/-- The optional field that an item declares: its type follows the percent sign. -/
def defaultField? : Item → Option Field
  | member line _ _ =>
      match line.field.type with
      | '%' :: type => some ⟨type, line.field.name⟩
      | _ => none
  | _ => none

/-- The variant that an item declares. -/
def variant? : Item → Option Variant
  | block opening fields _ => some ⟨opening.name, fields.map (·.field)⟩
  | _ => none

/-- The schema with what an item declares. -/
def addTo (schema : Schema) (item : Item) : Schema :=
  { schema with
    baseFields := schema.baseFields ++ item.baseField?.toList
    defaultFields := schema.defaultFields ++ item.defaultField?.toList
    fixedLines := schema.fixedLines ++ item.fixedLine?.toList
    variants := schema.variants ++ item.variant?.toList }

/-- An item of a single line is a plain line. -/
theorem plain_of_lines
    {item : Item}
    {text : Text}
    (single : item.lines = [text]) :
    IsPlain text := by
  cases item with
  | fixed line marked =>
      obtain ⟨rfl, -⟩ := List.cons.inj single
      exact line.plain
  | member line unmarked typed =>
      obtain ⟨rfl, -⟩ := List.cons.inj single
      exact line.plain
  | block opening fields closing => simp [lines] at single

theorem addTo_fixed
    (schema : Schema)
    (line : PlainLine)
    (marked : line.text.head? = some '&') :
    addTo schema (fixed line marked) =
      { schema with fixedLines := schema.fixedLines ++ [line.text.tail] } := by
  simp [addTo, fixedLine?, baseField?, defaultField?, variant?]

theorem addTo_member_default
    (schema : Schema)
    (line : FieldLine)
    (unmarked : line.text.head? ≠ some '&')
    (typed : line.field.type ≠ ['%'])
    {type : Text}
    (optional : line.field.type = '%' :: type) :
    addTo schema (member line unmarked typed) =
      { schema with
        defaultFields := schema.defaultFields ++ [⟨type, line.field.name⟩] } := by
  simp [addTo, fixedLine?, baseField?, defaultField?, variant?, optional]

theorem addTo_member_base
    (schema : Schema)
    (line : FieldLine)
    (unmarked : line.text.head? ≠ some '&')
    (typed : line.field.type ≠ ['%'])
    (demanded : line.field.type.head? ≠ some '%') :
    addTo schema (member line unmarked typed) =
      { schema with baseFields := schema.baseFields ++ [line.field] } := by
  have base : (member line unmarked typed).baseField? = some line.field := by
    simp only [baseField?]
    split
    · rename_i equal
      exact (demanded (by simp [equal])).elim
    · rfl
  have noDefault : (member line unmarked typed).defaultField? = none := by
    simp only [defaultField?]
    split
    · rename_i equal
      exact (demanded (by simp [equal])).elim
    · rfl
  simp [addTo, fixedLine?, variant?, base, noDefault]

theorem addTo_block
    (schema : Schema)
    (opening : OpeningLine)
    (fields : List FieldLine)
    (closing : ClosingLine) :
    addTo schema (block opening fields closing) =
      { schema with
        variants := schema.variants ++ [⟨opening.name, fields.map (·.field)⟩] } := by
  simp [addTo, fixedLine?, baseField?, defaultField?, variant?]

end Item

/-! ## Outlines and the schemas they denote -/

/-- The flags that are set by the lines before the schema block. -/
def flags (directives : List PlainLine) : Schema :=
  { allowNulls :=
      directives.any fun line => Text.words line.text = (["Set", "AllowNulls"] : List Text)
    knownTypes :=
      directives.any fun line => Text.words line.text = (["Set", "KnownTypes"] : List Text) }

theorem flags_eq (directives : List PlainLine) :
    flags directives =
      { allowNulls :=
          directives.any fun line => Text.words line.text = Progress.allowNullsDirective
        knownTypes :=
          directives.any fun line => Text.words line.text = Progress.knownTypesDirective } :=
  rfl

/-- The part of an outline up to a place between the items of the schema block. -/
structure Opened where
  directives : List PlainLine
  opening : OpeningLine
  items : List Item

namespace Opened

/-- The lines up to that place. -/
def lines (opened : Opened) : List Text :=
  opened.directives.map (·.text) ++
    opened.opening.text :: opened.items.flatMap Item.lines

/-- The schema declared up to that place. -/
def schema (opened : Opened) : Schema :=
  { flags opened.directives with
    name := opened.opening.name
    baseFields := opened.items.filterMap Item.baseField?
    defaultFields := opened.items.filterMap Item.defaultField?
    fixedLines := opened.items.filterMap Item.fixedLine?
    variants := opened.items.filterMap Item.variant? }

/-- One more item. -/
def add (opened : Opened) (item : Item) : Opened :=
  { opened with items := opened.items ++ [item] }

@[simp]
theorem lines_add (opened : Opened) (item : Item) :
    (opened.add item).lines = opened.lines ++ item.lines := by
  simp [lines, add]

@[simp]
theorem schema_add (opened : Opened) (item : Item) :
    (opened.add item).schema = item.addTo opened.schema := by
  have single {α : Type} (declared? : Item → Option α) :
      [item].filterMap declared? = (declared? item).toList := by
    cases equal : declared? item <;> simp [equal]
  simp [schema, add, Item.addTo, single]

end Opened

end Outline

/-- The content of a complete document: its schema block and what follows it. -/
structure Outline extends Outline.Opened where
  closing : Outline.ClosingLine
  rest : List Text

namespace Outline

/-- All lines of the document. -/
def lines (outline : Outline) : List Text :=
  outline.toOpened.lines ++ outline.closing.text :: outline.rest

/-- The schema that the document denotes. -/
def schema (outline : Outline) : Schema :=
  outline.toOpened.schema

/-! ## What a step reads -/

theorem marker_eq_opens_iff (line : ContentLine) :
    line.marker = .opens ↔ Opens line.text := by
  unfold ContentLine.marker ContentLine.words Opens
  split <;> simp_all

theorem marker_eq_closes_iff (line : ContentLine) :
    line.marker = .closes ↔ Closes line.text := by
  unfold ContentLine.marker ContentLine.words Closes
  split <;> simp_all

theorem marker_eq_plain_iff (line : ContentLine) :
    line.marker = .plain ↔ IsPlain line.text := by
  rw [IsPlain, ← marker_eq_opens_iff, ← marker_eq_closes_iff]
  cases line.marker <;> simp

theorem blockName_eq_ok_iff
    {line : ContentLine}
    (opens : Opens line.text)
    (name : Text) :
    Progress.blockName line = .ok name ↔
      ∃ opening : OpeningLine, opening.text = line.text ∧ opening.name = name := by
  constructor
  · intro named
    unfold Progress.blockName at named
    split at named
    · rename_i next more wordsEqual
      cases named
      exact ⟨⟨line.text, name, opens, next, more, wordsEqual⟩, rfl, rfl⟩
    · cases named
  · rintro ⟨⟨text, first, _, next, more, named⟩, rfl, rfl⟩
    simp [Progress.blockName, ContentLine.words, named]

theorem readField_eq_ok_iff (words : List Text) (field : Field) :
    Progress.readField words = .ok field ↔ words = [field.type, field.name] := by
  obtain ⟨type, name⟩ := field
  unfold Progress.readField
  split <;> simp_all

/-- A field line is read as the field that it spells. -/
theorem FieldLine.readField (line : FieldLine) :
    Progress.readField (Text.words line.text) = .ok line.field :=
  (readField_eq_ok_iff _ _).mpr line.spelled

/-- In the schema block, what the line of an item declares is added to the schema. -/
theorem readMember_of_item
    {item : Item}
    {line : ContentLine}
    (schema : Schema)
    (starts : Text.startsWord line.text = true)
    (spelled : item.lines = [line.text]) :
    Progress.readMember schema line = .ok (item.addTo schema) := by
  cases item with
  | fixed plain marked =>
      have textEqual : plain.text = line.text := by simpa [Item.lines] using spelled
      obtain ⟨copied, copiedEqual⟩ := List.head?_eq_some_iff.mp marked
      rw [Item.addTo_fixed, Progress.readMember, ← textEqual, copiedEqual]
      rfl
  | member fieldLine unmarked typed =>
      have textEqual : fieldLine.text = line.text := by simpa [Item.lines] using spelled
      have read : Progress.readField line.words = .ok fieldLine.field := by
        rw [ContentLine.words, ← textEqual]
        exact fieldLine.readField
      have heads : line.text.head? = fieldLine.field.type.head? :=
        Text.head?_eq_of_words starts (textEqual ▸ fieldLine.spelled)
      unfold Progress.readMember
      split
      · rename_i copied textIs
        exact (unmarked (by simp [textEqual, textIs])).elim
      · rename_i rest textIs
        rw [textIs] at heads
        obtain ⟨type, typeIs⟩ := List.head?_eq_some_iff.mp heads.symm
        rw [Item.addTo_member_default _ _ _ _ typeIs, read]
        cases type with
        | nil => exact (typed typeIs).elim
        | cons first others => simp [bind, Except.bind, typeIs]
      · rename_i notDefault
        have demanded : fieldLine.field.type.head? ≠ some '%' := by
          rw [← heads]
          intro optional
          obtain ⟨rest, textIs⟩ := List.head?_eq_some_iff.mp optional
          exact notDefault rest textIs
        rw [Item.addTo_member_base _ _ _ _ demanded, read]
        rfl
  | block opening fields closing => simp [Item.lines] at spelled

/-- In the schema block, every plain line that is read is an item. -/
theorem item_of_readMember
    {line : ContentLine}
    {schema next : Schema}
    (plain : IsPlain line.text)
    (starts : Text.startsWord line.text = true)
    (read : Progress.readMember schema line = .ok next) :
    ∃ item : Item, item.lines = [line.text] ∧ next = item.addTo schema := by
  suffices exists_item : ∃ item : Item, item.lines = [line.text] by
    obtain ⟨item, spelled⟩ := exists_item
    rw [readMember_of_item schema starts spelled, Except.ok.injEq] at read
    exact ⟨item, spelled, read.symm⟩
  have spelled_of_read {field : Field}
      (fieldRead : Progress.readField line.words = .ok field) :
      Text.words line.text = [field.type, field.name] :=
    (readField_eq_ok_iff _ _).mp fieldRead
  unfold Progress.readMember at read
  split at read
  · rename_i copied textIs
    exact ⟨.fixed ⟨line.text, plain⟩ (by simp [textIs]), rfl⟩
  · rename_i rest textIs
    cases fieldRead : Progress.readField line.words with
    | error fault => simp [fieldRead, bind, Except.bind] at read
    | ok field =>
        refine ⟨.member ⟨line.text, field, plain, spelled_of_read fieldRead⟩
          (by simp [textIs]) ?_, rfl⟩
        intro bare
        simp [fieldRead, bind, Except.bind, show field.type = ['%'] from bare] at read
  · rename_i notFixed notDefault
    cases fieldRead : Progress.readField line.words with
    | error fault => simp [fieldRead, bind, Except.bind] at read
    | ok field =>
        refine ⟨.member ⟨line.text, field, plain, spelled_of_read fieldRead⟩ ?_ ?_, rfl⟩
        · intro marked
          obtain ⟨copied, textIs⟩ := List.head?_eq_some_iff.mp marked
          exact notFixed copied textIs
        · intro bare
          have heads := Text.head?_eq_of_words starts (spelled_of_read fieldRead)
          rw [show field.type = ['%'] from bare] at heads
          obtain ⟨rest, textIs⟩ := List.head?_eq_some_iff.mp heads
          exact notDefault rest textIs

theorem blockName_of_opening
    {opening : OpeningLine}
    {line : ContentLine}
    (spelled : opening.text = line.text) :
    Progress.blockName line = .ok opening.name :=
  (blockName_eq_ok_iff (spelled ▸ opening.opens) _).mpr ⟨opening, spelled, rfl⟩

/-- Before the schema block, a line is a directive or opens the block. -/
theorem step_directives_eq_ok_iff
    (schema : Schema)
    (diagnostics : List Diagnostic)
    (line : ContentLine)
    (next : Progress) :
    Progress.step ⟨.directives, schema, diagnostics⟩ line = .ok next ↔
      (∃ plain : PlainLine,
        plain.text = line.text ∧
          next = Progress.readDirective ⟨.directives, schema, diagnostics⟩ line) ∨
      ∃ opening : OpeningLine,
        opening.text = line.text ∧
          next = ⟨.body, { schema with name := opening.name }, diagnostics⟩ := by
  constructor
  · intro stepped
    cases marked : line.marker with
    | opens =>
        have opens := (marker_eq_opens_iff line).mp marked
        cases named : Progress.blockName line with
        | error fault => simp [Progress.step, marked, named, bind, Except.bind] at stepped
        | ok name =>
            obtain ⟨opening, spelled, rfl⟩ := (blockName_eq_ok_iff opens name).mp named
            simp only [Progress.step, marked, named, bind, Except.bind,
              Except.ok.injEq] at stepped
            exact Or.inr ⟨opening, spelled, stepped.symm⟩
    | closes => simp [Progress.step, marked] at stepped
    | plain =>
        simp only [Progress.step, marked, Except.ok.injEq] at stepped
        exact Or.inl
          ⟨⟨line.text, (marker_eq_plain_iff line).mp marked⟩, rfl, stepped.symm⟩
  · rintro (⟨plain, spelled, rfl⟩ | ⟨opening, spelled, rfl⟩)
    · have marked := (marker_eq_plain_iff line).mpr (spelled ▸ plain.plain)
      simp [Progress.step, marked]
    · have marked := (marker_eq_opens_iff line).mpr (spelled ▸ opening.opens)
      simp [Progress.step, marked, blockName_of_opening spelled, bind, Except.bind]

/-- In the schema block, a line is an item, opens a variant or closes the block. -/
theorem step_body_eq_ok_iff
    (schema : Schema)
    (diagnostics : List Diagnostic)
    {line : ContentLine}
    (starts : Text.startsWord line.text = true)
    (next : Progress) :
    Progress.step ⟨.body, schema, diagnostics⟩ line = .ok next ↔
      (∃ item : Item,
        item.lines = [line.text] ∧ next = ⟨.body, item.addTo schema, diagnostics⟩) ∨
      (∃ opening : OpeningLine,
        opening.text = line.text ∧
          next = ⟨.variant ⟨opening.name, []⟩, schema, diagnostics⟩) ∨
      ∃ closing : ClosingLine,
        closing.text = line.text ∧
          next =
            ⟨.finished, schema,
              diagnostics ++ [Progress.completion schema.name line]⟩ := by
  constructor
  · intro stepped
    cases marked : line.marker with
    | opens =>
        have opens := (marker_eq_opens_iff line).mp marked
        cases named : Progress.blockName line with
        | error fault => simp [Progress.step, marked, named, bind, Except.bind] at stepped
        | ok name =>
            obtain ⟨opening, spelled, rfl⟩ := (blockName_eq_ok_iff opens name).mp named
            simp only [Progress.step, marked, named, bind, Except.bind,
              Except.ok.injEq] at stepped
            exact Or.inr (Or.inl ⟨opening, spelled, stepped.symm⟩)
    | closes =>
        simp only [Progress.step, marked, Except.ok.injEq] at stepped
        exact Or.inr (Or.inr
          ⟨⟨line.text, (marker_eq_closes_iff line).mp marked⟩, rfl, stepped.symm⟩)
    | plain =>
        cases read : Progress.readMember schema line with
        | error fault => simp [Progress.step, marked, read, bind, Except.bind] at stepped
        | ok changed =>
            obtain ⟨item, spelled, rfl⟩ :=
              item_of_readMember ((marker_eq_plain_iff line).mp marked) starts read
            simp only [Progress.step, marked, read, bind, Except.bind,
              Except.ok.injEq] at stepped
            exact Or.inl ⟨item, spelled, stepped.symm⟩
  · rintro (⟨item, spelled, rfl⟩ | ⟨opening, spelled, rfl⟩ | ⟨closing, spelled, rfl⟩)
    · have marked := (marker_eq_plain_iff line).mpr (Item.plain_of_lines spelled)
      simp [Progress.step, marked, readMember_of_item schema starts spelled, bind,
        Except.bind]
    · have marked := (marker_eq_opens_iff line).mpr (spelled ▸ opening.opens)
      simp [Progress.step, marked, blockName_of_opening spelled, bind, Except.bind]
    · have marked := (marker_eq_closes_iff line).mpr (spelled ▸ closing.closes)
      simp [Progress.step, marked]

/-- In the block of a variant, a line is a field or closes the block. -/
theorem step_variant_eq_ok_iff
    (current : Variant)
    (schema : Schema)
    (diagnostics : List Diagnostic)
    (line : ContentLine)
    (next : Progress) :
    Progress.step ⟨.variant current, schema, diagnostics⟩ line = .ok next ↔
      (∃ fieldLine : FieldLine,
        fieldLine.text = line.text ∧
          next =
            ⟨.variant { current with fields := current.fields ++ [fieldLine.field] },
              schema, diagnostics⟩) ∨
      ∃ closing : ClosingLine,
        closing.text = line.text ∧
          next =
            ⟨.body, { schema with variants := schema.variants ++ [current] },
              diagnostics⟩ := by
  constructor
  · intro stepped
    cases marked : line.marker with
    | opens => simp [Progress.step, marked] at stepped
    | closes =>
        simp only [Progress.step, marked, Except.ok.injEq] at stepped
        exact Or.inr
          ⟨⟨line.text, (marker_eq_closes_iff line).mp marked⟩, rfl, stepped.symm⟩
    | plain =>
        cases read : Progress.readField line.words with
        | error fault => simp [Progress.step, marked, read, bind, Except.bind] at stepped
        | ok field =>
            have spelled := (readField_eq_ok_iff _ _).mp read
            simp only [Progress.step, marked, read, bind, Except.bind,
              Except.ok.injEq] at stepped
            exact Or.inl
              ⟨⟨line.text, field, (marker_eq_plain_iff line).mp marked, spelled⟩, rfl,
                stepped.symm⟩
  · rintro (⟨fieldLine, spelled, rfl⟩ | ⟨closing, spelled, rfl⟩)
    · have marked := (marker_eq_plain_iff line).mpr (spelled ▸ fieldLine.plain)
      have read : Progress.readField line.words = .ok fieldLine.field := by
        rw [ContentLine.words, ← spelled]
        exact fieldLine.readField
      simp [Progress.step, marked, read, bind, Except.bind]
    · have marked := (marker_eq_closes_iff line).mpr (spelled ▸ closing.closes)
      simp [Progress.step, marked]

end Outline

end TaggedUnion
