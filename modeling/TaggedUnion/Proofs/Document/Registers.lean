import TaggedUnion.Proofs.Document.Outline

/-!
# Reading with registers

A document can also be read by one loop over its raw lines that keeps a few registers:
how deep blocks are nested, the schema so far, the variant at hand, whether the schema
block is closed, and the lines that follow it.  The loop relies on what it has stored,
and looks things up that need not be there: the last word of a line, the first character
of its first word, the variant at hand.

`Registers` is that loop, where every look-up may fail.  On content lines the look-ups of
words and characters succeed, and `Reads` says all that a line can do to the registers.
From this the registers stay consistent with each other, so there is a variant at hand
where it is looked up, and they account for the lines that have been read.
-/

namespace TaggedUnion

/-- How deep blocks are nested. -/
inductive Level where
  | top
  | schema
  | variant
deriving DecidableEq, Repr

namespace Level

/-- The number of open blocks. -/
def depth : Level → Nat
  | top => 0
  | schema => 1
  | variant => 2

/-- The level inside a block that is opened. -/
def opened? : Level → Option Level
  | top => some schema
  | schema => some variant
  | variant => none

/-- The level around a block that is closed. -/
def closed? : Level → Option Level
  | top => none
  | schema => some top
  | variant => some schema

end Level

/-- What the loop over the lines stores. -/
structure Registers where
  level : Level := .top
  schema : Schema := {}
  /-- The variant at hand. -/
  current : Option Variant := none
  diagnostics : List Diagnostic := []
  /-- The schema block is closed. -/
  completed : Bool := false
  /-- The lines after the schema block. -/
  remaining : List ContentLine := []
deriving DecidableEq, Repr

namespace Registers

/-! ## The loop -/

/-- Why a line is not read. -/
inductive Stop where
  /-- The line is at fault. -/
  | refused (fault : LineFault)
  /-- Something that was looked up is not there. -/
  | failed
deriving DecidableEq, Repr

/-- Why the lines are not read to their end. -/
inductive Ending where
  /-- The document is rejected. -/
  | rejected (reading : Reading)
  /-- Something that was looked up is not there. -/
  | failed
deriving DecidableEq, Repr

/-- What a look-up has found. -/
def found {α : Type} : Option α → Except Stop α
  | some value => .ok value
  | none => .error .failed

/-- A field is spelled by two words. -/
def fieldOf (words : List Text) : Except Stop Field :=
  if words.length ≠ 2 then
    .error (.refused (.wordCount words.length))
  else do
    let type ← found words[0]?
    let name ← found words[1]?
    .ok ⟨type, name⟩

/-- Go to the level inside a block with the given name. -/
def enter (registers : Registers) (next : Level) (name : Text) : Registers :=
  if next = .schema then
    { registers with level := next, schema := { registers.schema with name } }
  else
    { registers with level := next, current := some { name } }

/-- Open a block with the first of the words as its name. -/
def openBlock (registers : Registers) (words : List Text) : Except Stop Registers :=
  match registers.level.opened? with
  | none => .error (.refused .openedTooDeep)
  | some next =>
      if words.length < 2 then
        .error (.refused .openedUnnamed)
      else do
        let name ← found words[0]?
        .ok (registers.enter next name)

/-- Close the block at hand: that of a variant, which is added, or that of the schema. -/
def closeBlock (registers : Registers) (line : ContentLine) : Except Stop Registers :=
  match registers.level.closed? with
  | none => .error (.refused .closedTooOften)
  | some next =>
      if registers.level = .variant then do
        let current ← found registers.current
        .ok
          { registers with
            level := next
            schema :=
              { registers.schema with variants := registers.schema.variants ++ [current] }
            current := none }
      else
        .ok
          { registers with
            level := next
            completed := true
            diagnostics :=
              registers.diagnostics ++ [Progress.completion registers.schema.name line] }

/-- Above the schema block, set a flag or remark on the line. -/
def readDirective (registers : Registers) (line : ContentLine) : Registers :=
  let read := Progress.readDirective ⟨.directives, registers.schema, registers.diagnostics⟩ line
  { registers with schema := read.schema, diagnostics := read.diagnostics }

/-- In the schema block, the first character tells what the line declares. -/
def readMember (registers : Registers) (line : ContentLine) : Except Stop Registers := do
  let first ← found line.words[0]?
  let leading ← found first[0]?
  let schema := registers.schema
  if leading = '&' then
    let fixedLines := schema.fixedLines ++ [line.text.drop 1]
    .ok { registers with schema := { schema with fixedLines } }
  else if leading = '%' then
    let field ← fieldOf line.words
    let type := field.type.drop 1
    if type = [] then
      .error (.refused .missingType)
    else
      let defaultFields := schema.defaultFields ++ [⟨type, field.name⟩]
      .ok { registers with schema := { schema with defaultFields } }
  else
    let field ← fieldOf line.words
    let baseFields := schema.baseFields ++ [field]
    .ok { registers with schema := { schema with baseFields } }

/-- In the block of a variant, add a field to the variant at hand. -/
def readOwnField (registers : Registers) (line : ContentLine) : Except Stop Registers := do
  let field ← fieldOf line.words
  let current ← found registers.current
  let fields := current.fields ++ [field]
  .ok { registers with current := some { current with fields } }

/-- A line without a marker is read by the level at which it stands. -/
def readPlain (registers : Registers) (line : ContentLine) : Except Stop Registers :=
  match registers.level with
  | .top => .ok (registers.readDirective line)
  | .schema => registers.readMember line
  | .variant => registers.readOwnField line

/-- Read one content line, up to the one that closes the schema block. -/
def parseLine (registers : Registers) (line : ContentLine) : Except Stop Registers := do
  let last ← found line.words.getLast?
  if last = ['{'] then
    registers.openBlock line.words
  else if last = ['}'] then
    registers.closeBlock line
  else
    registers.readPlain line

/-- After the schema block, keep a content line unread. -/
def putAside (registers : Registers) (line : ContentLine) : Registers :=
  { registers with remaining := registers.remaining ++ [line] }

/-- Read one raw line: blank lines and comments say nothing. -/
def load (registers : Registers) (number : Nat) (raw : Text) : Except Stop Registers :=
  let text := Text.trim raw
  if text = [] ∨ text.head? = some '#' then
    .ok registers
  else if registers.completed then
    .ok (registers.putAside ⟨number, text⟩)
  else
    registers.parseLine ⟨number, text⟩

/-- Read raw lines, the first of which has the given number. -/
def loop (registers : Registers) (number : Nat) : List Text → Except Ending Registers
  | [] => .ok registers
  | raw :: rest =>
      match registers.load number raw with
      | .ok next => next.loop (number + 1) rest
      | .error (.refused fault) =>
          .error
            (.rejected
              (.aborted registers.diagnostics (.atLine ⟨number, Text.trim raw⟩ fault)))
      | .error .failed => .error .failed

/-- The answer once there are no more lines. -/
def finish (registers : Registers) : Except Stop Reading :=
  if registers.completed then
    .ok
      (.completed registers.schema
        (registers.diagnostics ++
          Progress.trailing registers.schema.name registers.remaining))
  else
    match registers.level with
    | .top => .ok (.aborted registers.diagnostics .noBlock)
    | .schema => .ok (.aborted registers.diagnostics (.unclosed registers.schema.name))
    | .variant => do
        let current ← found registers.current
        .ok (.aborted registers.diagnostics (.unclosed current.name))

/-- Read the lines of a document; there is no answer if a look-up fails. -/
def parse? (lines : List Text) : Option Reading :=
  match loop {} 1 lines with
  | .ok registers => registers.finish.toOption
  | .error (.rejected reading) => some reading
  | .error .failed => none

/-! ## What the look-ups find -/

theorem fieldOf_eq (words : List Text) :
    fieldOf words = (Progress.readField words).mapError .refused := by
  rcases words with _ | ⟨type, _ | ⟨name, _ | ⟨third, more⟩⟩⟩
  · rfl
  · rfl
  · rfl
  · simp [fieldOf, Progress.readField, Except.mapError]

/-- The first word of a content line begins with the first character of the line. -/
theorem exists_leading
    {line : ContentLine}
    (starts : Text.startsWord line.text = true) :
    ∃ leading rest word more,
      line.text = leading :: rest ∧ line.words = (leading :: word) :: more := by
  cases textIs : line.text with
  | nil => simp [textIs, Text.startsWord] at starts
  | cons leading rest =>
      rw [textIs, Text.startsWord, Bool.not_eq_true'] at starts
      obtain ⟨word, more, wordsAre⟩ := Text.words_cons_of_visible starts rest
      exact ⟨leading, rest, word, more, rfl, by rw [ContentLine.words, textIs, wordsAre]⟩

/-- A content line has a last word, which is its marker if it has one. -/
theorem parseLine_eq
    (registers : Registers)
    {line : ContentLine}
    (starts : Text.startsWord line.text = true) :
    registers.parseLine line =
      match line.marker with
      | .opens => registers.openBlock line.words
      | .closes => registers.closeBlock line
      | .plain => registers.readPlain line := by
  obtain ⟨leading, rest, word, more, -, wordsAre⟩ := exists_leading starts
  have hasLast : ∃ last, line.words.getLast? = some last := by
    rw [wordsAre]
    exact ⟨_, List.getLast?_eq_some_getLast (List.cons_ne_nil _ _)⟩
  obtain ⟨last, lastIs⟩ := hasLast
  unfold parseLine ContentLine.marker
  simp only [lastIs, found, bind, Except.bind]
  split
  · rename_i opens
    simp [opens]
  · split
    · rename_i closes
      simp [closes]
    · split <;> simp_all

theorem openBlock_eq
    {registers : Registers}
    {next : Level}
    (opened : registers.level.opened? = some next)
    (line : ContentLine) :
    registers.openBlock line.words =
      ((Progress.blockName line).mapError .refused).map (registers.enter next) := by
  rw [openBlock, opened, Progress.blockName]
  rcases line.words with _ | ⟨name, _ | ⟨second, more⟩⟩ <;> rfl

/-- In the schema block, a line is read from its words as it is from its text. -/
theorem readMember_eq
    (registers : Registers)
    {line : ContentLine}
    (starts : Text.startsWord line.text = true) :
    registers.readMember line =
      ((Progress.readMember registers.schema line).mapError .refused).map fun schema =>
        { registers with schema } := by
  obtain ⟨leading, rest, word, more, textIs, wordsAre⟩ := exists_leading starts
  have firstWord : line.words[0]? = some (leading :: word) := by rw [wordsAre]; rfl
  unfold readMember Progress.readMember
  simp only [firstWord, textIs, fieldOf_eq, found, bind, Except.bind, List.getElem?_cons_zero]
  by_cases fixed : leading = '&'
  · subst fixed
    simp [Except.mapError, Except.map]
  · by_cases optional : leading = '%'
    · subst optional
      cases Progress.readField line.words with
      | error fault => rfl
      | ok field =>
          obtain ⟨type, name⟩ := field
          rcases type with _ | ⟨mark, _ | ⟨second, more⟩⟩ <;> rfl
    · simp only [fixed, optional, if_false]
      cases Progress.readField line.words <;> simp [Except.mapError, Except.map, fixed, optional]

theorem readOwnField_eq
    {registers : Registers}
    {current : Variant}
    (atHand : registers.current = some current)
    (line : ContentLine) :
    registers.readOwnField line =
      ((Progress.readField line.words).mapError .refused).map fun field =>
        { registers with
          current := some { current with fields := current.fields ++ [field] } } := by
  rw [readOwnField, fieldOf_eq, atHand]
  cases Progress.readField line.words <;> rfl

/-! ## Consistent registers -/

/-- The registers agree with each other. -/
structure IsConsistent (registers : Registers) : Prop where
  /-- There is a variant at hand exactly in the block of a variant. -/
  current_iff : registers.current.isSome = true ↔ registers.level = .variant
  /-- The schema is named exactly once its block has been opened. -/
  named_iff :
    registers.schema.name ≠ [] ↔ registers.level ≠ .top ∨ registers.completed = true
  /-- Once the schema block is closed, no block is open. -/
  top_of_completed : registers.completed = true → registers.level = .top
  /-- No line is put aside before the schema block is closed. -/
  remaining_of_open : registers.completed = false → registers.remaining = []
  /-- Every variant that has been added has a name. -/
  variants_named : ∀ variant ∈ registers.schema.variants, variant.name ≠ []
  /-- So has the variant at hand. -/
  current_named : ∀ current ∈ registers.current, current.name ≠ []

/--
The level accounts for the content lines so far: of those that have not been put aside, as
many have opened a block without one closing as blocks are open.
-/
def Accounts (registers : Registers) (content : List ContentLine) : Prop :=
  ∃ handled,
    content = handled ++ registers.remaining ∧
      (registers.level.depth : Int) =
        (handled.countP (·.marker = .opens) : Int) - handled.countP (·.marker = .closes)

/-- What reading one content line does to the registers. -/
inductive Reads (registers : Registers) (line : ContentLine) : Registers → Prop where
  | openSchema
      {name : Text}
      (opens : line.marker = .opens)
      (top : registers.level = .top)
      (named : name ∈ line.words) :
      Reads registers line
        { registers with level := .schema, schema := { registers.schema with name } }
  | openVariant
      {name : Text}
      (opens : line.marker = .opens)
      (inSchema : registers.level = .schema)
      (named : name ∈ line.words) :
      Reads registers line { registers with level := .variant, current := some { name } }
  | closeVariant
      {current : Variant}
      (closes : line.marker = .closes)
      (inVariant : registers.level = .variant)
      (atHand : registers.current = some current) :
      Reads registers line
        { registers with
          level := .schema
          schema :=
            { registers.schema with variants := registers.schema.variants ++ [current] }
          current := none }
  | closeSchema
      (closes : line.marker = .closes)
      (inSchema : registers.level = .schema)
      (remark : Diagnostic) :
      Reads registers line
        { registers with
          level := .top
          completed := true
          diagnostics := registers.diagnostics ++ [remark] }
  | plain
      {schema : Schema}
      {current : Option Variant}
      (plain : line.marker = .plain)
      (sameName : schema.name = registers.schema.name)
      (sameVariants : schema.variants = registers.schema.variants)
      (sameCurrent : current.map (·.name) = registers.current.map (·.name))
      (diagnostics : List Diagnostic) :
      Reads registers line { registers with schema, current, diagnostics }

theorem reads_of_openBlock
    {registers next : Registers}
    {line : ContentLine}
    (marked : line.marker = .opens)
    (opened : registers.openBlock line.words = .ok next) :
    Reads registers line next := by
  have entered (inside : Level) (transition : registers.level.opened? = some inside) :
      ∃ name ∈ line.words, registers.enter inside name = next := by
    rw [openBlock_eq transition, map_mapError_eq_ok_iff] at opened
    obtain ⟨name, named, built⟩ := opened
    refine ⟨name, ?_, built⟩
    obtain ⟨opening, spelled, rfl⟩ :=
      (Outline.blockName_eq_ok_iff ((Outline.marker_eq_opens_iff line).mp marked) name).mp named
    obtain ⟨second, more, wordsAre⟩ := opening.named
    rw [ContentLine.words, ← spelled, wordsAre]
    exact List.mem_cons_self
  cases level : registers.level with
  | top =>
      obtain ⟨name, named, rfl⟩ := entered .schema (by rw [level]; rfl)
      exact .openSchema marked level named
  | schema =>
      obtain ⟨name, named, rfl⟩ := entered .variant (by rw [level]; rfl)
      exact .openVariant marked level named
  | variant => simp [openBlock, level, Level.opened?] at opened

theorem reads_of_closeBlock
    {registers next : Registers}
    {line : ContentLine}
    (marked : line.marker = .closes)
    (closed : registers.closeBlock line = .ok next) :
    Reads registers line next := by
  cases level : registers.level with
  | top => simp [closeBlock, level, Level.closed?] at closed
  | schema =>
      simp only [closeBlock, level, Level.closed?, reduceCtorEq, if_false,
        Except.ok.injEq] at closed
      subst closed
      exact .closeSchema marked level _
  | variant =>
      cases atHand : registers.current with
      | none => simp [closeBlock, level, Level.closed?, atHand, found, bind, Except.bind] at closed
      | some current =>
          simp only [closeBlock, level, Level.closed?, atHand, found, bind, Except.bind,
            if_true, Except.ok.injEq] at closed
          subst closed
          exact .closeVariant marked level atHand

theorem keeps_of_readDirective (progress : Progress) (line : ContentLine) :
    (progress.readDirective line).schema.name = progress.schema.name ∧
      (progress.readDirective line).schema.variants = progress.schema.variants := by
  unfold Progress.readDirective
  split
  · exact ⟨rfl, rfl⟩
  · split <;> exact ⟨rfl, rfl⟩

theorem keeps_of_readMember
    {schema next : Schema}
    {line : ContentLine}
    (read : Progress.readMember schema line = .ok next) :
    next.name = schema.name ∧ next.variants = schema.variants := by
  unfold Progress.readMember at read
  cases spelled : Progress.readField line.words with
  | error fault =>
      simp only [spelled, bind, Except.bind] at read
      split at read
      · cases read
        exact ⟨rfl, rfl⟩
      · cases read
      · cases read
  | ok field =>
      simp only [spelled, bind, Except.bind] at read
      split at read
      · cases read
        exact ⟨rfl, rfl⟩
      · split at read
        · cases read
        · cases read
          exact ⟨rfl, rfl⟩
      · cases read
        exact ⟨rfl, rfl⟩

theorem reads_of_readPlain
    {registers next : Registers}
    {line : ContentLine}
    (starts : Text.startsWord line.text = true)
    (marked : line.marker = .plain)
    (read : registers.readPlain line = .ok next) :
    Reads registers line next := by
  cases level : registers.level with
  | top =>
      simp only [readPlain, level, Except.ok.injEq] at read
      subst read
      obtain ⟨sameName, sameVariants⟩ :=
        keeps_of_readDirective ⟨.directives, registers.schema, registers.diagnostics⟩ line
      exact .plain marked sameName sameVariants rfl _
  | schema =>
      rw [readPlain, level, readMember_eq _ starts, map_mapError_eq_ok_iff] at read
      obtain ⟨schema, member, rfl⟩ := read
      obtain ⟨sameName, sameVariants⟩ := keeps_of_readMember member
      exact .plain marked sameName sameVariants rfl _
  | variant =>
      rw [readPlain, level] at read
      cases atHand : registers.current with
      | none =>
          rw [readOwnField, fieldOf_eq, atHand] at read
          cases spelled : Progress.readField line.words <;> rw [spelled] at read <;> cases read
      | some current =>
          rw [readOwnField_eq atHand, map_mapError_eq_ok_iff] at read
          obtain ⟨field, -, rfl⟩ := read
          exact .plain marked rfl rfl (by rw [atHand]; rfl) _

/-- All that reading a content line can do. -/
theorem reads_of_parseLine
    {registers next : Registers}
    {line : ContentLine}
    (starts : Text.startsWord line.text = true)
    (parsed : registers.parseLine line = .ok next) :
    Reads registers line next := by
  rw [parseLine_eq _ starts] at parsed
  cases marked : line.marker with
  | opens => exact reads_of_openBlock marked (by rwa [marked] at parsed)
  | closes => exact reads_of_closeBlock marked (by rwa [marked] at parsed)
  | plain => exact reads_of_readPlain starts marked (by rwa [marked] at parsed)

/-! ## What a line preserves -/

theorem Reads.isConsistent
    {registers next : Registers}
    {line : ContentLine}
    (reads : Reads registers line next)
    (consistent : registers.IsConsistent)
    (isOpen : registers.completed = false) :
    next.IsConsistent := by
  have nothingAside := consistent.remaining_of_open isOpen
  cases reads with
  | openSchema opens top named =>
      have nameless : ¬ registers.current.isSome := by simp [consistent.current_iff, top]
      have nonempty := (Text.isWord_of_mem_words named).nonempty
      exact
        { consistent with
          current_iff := by simpa using nameless
          named_iff := by simpa using nonempty
          top_of_completed := by simp [isOpen] }
  | openVariant opens inSchema named =>
      have nonempty := (Text.isWord_of_mem_words named).nonempty
      have schemaNamed := consistent.named_iff.mpr (.inl (by simp [inSchema]))
      exact
        { consistent with
          current_iff := by simp
          named_iff := by simpa using schemaNamed
          top_of_completed := by simp [isOpen]
          current_named := by simpa using nonempty }
  | @closeVariant current closes inVariant atHand =>
      have schemaNamed := consistent.named_iff.mpr (.inl (by simp [inVariant]))
      have currentNamed := consistent.current_named current atHand
      exact
        { consistent with
          current_iff := by simp
          named_iff := by simpa using schemaNamed
          top_of_completed := by simp [isOpen]
          variants_named := by
            intro variant member
            rcases List.mem_append.mp member with earlier | added
            · exact consistent.variants_named variant earlier
            · exact List.mem_singleton.mp added ▸ currentNamed
          current_named := by simp }
  | closeSchema closes inSchema remark =>
      have schemaNamed := consistent.named_iff.mpr (.inl (by simp [inSchema]))
      have nameless : ¬ registers.current.isSome := by simp [consistent.current_iff, inSchema]
      exact
        { consistent with
          current_iff := by simpa using nameless
          named_iff := by simpa using schemaNamed
          top_of_completed := fun _ => rfl
          remaining_of_open := by simp }
  | @plain schema current plain sameName sameVariants sameCurrent diagnostics =>
      have sameSome : current.isSome = registers.current.isSome := by
        simpa using congrArg Option.isSome sameCurrent
      exact
        { consistent with
          current_iff := sameSome ▸ consistent.current_iff
          named_iff := sameName ▸ consistent.named_iff
          variants_named := sameVariants ▸ consistent.variants_named
          current_named := by
            intro variant atHand
            have named : registers.current.map (·.name) = some variant.name := by
              rw [← sameCurrent, show current = some variant from atHand, Option.map_some]
            obtain ⟨before, wasAtHand, sameNames⟩ := Option.map_eq_some_iff.mp named
            exact sameNames ▸ consistent.current_named before wasAtHand }

theorem Reads.accounts
    {registers next : Registers}
    {line : ContentLine}
    {content : List ContentLine}
    (reads : Reads registers line next)
    (nothingAside : registers.remaining = [])
    (accounts : registers.Accounts content) :
    next.Accounts (content ++ [line]) := by
  obtain ⟨handled, rfl, depths⟩ := accounts
  have together : next.remaining = [] := by cases reads <;> exact nothingAside
  refine ⟨handled ++ [line], by simp [nothingAside, together], ?_⟩
  have counted (marker : Marker) :
      (handled ++ [line]).countP (·.marker = marker) =
        handled.countP (·.marker = marker) + if line.marker = marker then 1 else 0 := by
    simp [List.countP_append, List.countP_singleton]
  rw [counted, counted]
  cases reads with
  | openSchema marked level | openVariant marked level
  | closeVariant marked level | closeSchema marked level =>
      simp only [level, marked, Level.depth, reduceCtorEq, if_true, if_false] at depths ⊢
      omega
  | plain marked => simpa [marked] using depths

theorem Reads.variants_isPrefix
    {registers next : Registers}
    {line : ContentLine}
    (reads : Reads registers line next) :
    registers.schema.variants <+: next.schema.variants := by
  cases reads with
  | openSchema | openVariant | closeSchema => exact List.prefix_rfl
  | closeVariant => exact List.prefix_append _ _
  | plain plain sameName sameVariants => exact sameVariants ▸ List.prefix_rfl

theorem IsConsistent.putAside
    {registers : Registers}
    (consistent : registers.IsConsistent)
    (isCompleted : registers.completed = true)
    (line : ContentLine) :
    (registers.putAside line).IsConsistent :=
  { consistent with
    remaining_of_open := fun isOpen => by
      rw [show registers.completed = false from isOpen] at isCompleted
      cases isCompleted }

theorem Accounts.putAside
    {registers : Registers}
    {content : List ContentLine}
    (accounts : registers.Accounts content)
    (line : ContentLine) :
    (registers.putAside line).Accounts (content ++ [line]) := by
  obtain ⟨handled, rfl, depths⟩ := accounts
  exact ⟨handled, List.append_assoc .., depths⟩

end Registers

end TaggedUnion
