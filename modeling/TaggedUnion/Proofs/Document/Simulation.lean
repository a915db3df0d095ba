import TaggedUnion.Proofs.Document.Registers

/-!
# The reading that registers represent

Consistent registers represent a progress of the reading.  A line takes registers to
registers that represent the next progress, or is refused for the same fault; so the loop
over the lines of a document runs as the reading runs, no look-up in it fails, and its
answer is that of the reading.
-/

namespace TaggedUnion

namespace Registers

/-! ## The progress that registers represent -/

/-- Where reading has got to, by the registers. -/
def scope (registers : Registers) : Scope :=
  if registers.completed then
    match registers.remaining with
    | [] => .finished
    | first :: more => .ignoring first (more.length + 1)
  else
    match registers.level, registers.current with
    | .top, _ => .directives
    | .variant, some current => .variant current
    | _, _ => .body

/-- What has been read, by the registers. -/
def progress (registers : Registers) : Progress :=
  ⟨registers.scope, registers.schema, registers.diagnostics⟩

/-- Before the schema block is closed, three forms of registers are consistent. -/
theorem IsConsistent.shape
    {registers : Registers}
    (consistent : registers.IsConsistent)
    (isOpen : registers.completed = false) :
    ∃ schema diagnostics,
      registers = ⟨.top, schema, none, diagnostics, false, []⟩ ∨
        registers = ⟨.schema, schema, none, diagnostics, false, []⟩ ∨
        ∃ current, registers = ⟨.variant, schema, some current, diagnostics, false, []⟩ := by
  obtain ⟨current_iff, -, -, nothingAside, -, -⟩ := consistent
  obtain ⟨level, schema, current, diagnostics, completed, remaining⟩ := registers
  refine ⟨schema, diagnostics, ?_⟩
  cases level with
  | top => simp_all
  | schema => simp_all
  | variant => simp_all [Option.isSome_iff_exists]

section Levels

variable
  (schema : Schema)
  (diagnostics : List Diagnostic)
  {line : ContentLine}
  (starts : Text.startsWord line.text = true)

include starts

theorem map_progress_parseLine_top :
    (parseLine ⟨.top, schema, none, diagnostics, false, []⟩ line).map progress =
      (Progress.step ⟨.directives, schema, diagnostics⟩ line).mapError .refused := by
  rw [parseLine_eq _ starts, Progress.step]
  cases line.marker with
  | opens =>
      rw [openBlock_eq rfl]
      cases Progress.blockName line <;> rfl
  | closes => rfl
  | plain =>
      change Except.ok _ = Except.ok _
      unfold readDirective Progress.readDirective progress
      split
      · rfl
      · split <;> rfl

theorem map_progress_parseLine_schema :
    (parseLine ⟨.schema, schema, none, diagnostics, false, []⟩ line).map progress =
      (Progress.step ⟨.body, schema, diagnostics⟩ line).mapError .refused := by
  rw [parseLine_eq _ starts, Progress.step]
  cases line.marker with
  | opens =>
      rw [openBlock_eq rfl]
      cases Progress.blockName line <;> rfl
  | closes => rfl
  | plain =>
      rw [readPlain, readMember_eq _ starts]
      cases Progress.readMember schema line <;> rfl

theorem map_progress_parseLine_variant (current : Variant) :
    (parseLine ⟨.variant, schema, some current, diagnostics, false, []⟩ line).map progress =
      (Progress.step ⟨.variant current, schema, diagnostics⟩ line).mapError .refused := by
  rw [parseLine_eq _ starts, Progress.step]
  cases line.marker with
  | opens => rfl
  | closes => rfl
  | plain =>
      rw [readPlain, readOwnField_eq rfl]
      cases Progress.readField line.words <;> rfl

end Levels

/-- Consistent registers read a line as the progress that they represent does. -/
theorem map_progress_parseLine
    {registers : Registers}
    {line : ContentLine}
    (consistent : registers.IsConsistent)
    (isOpen : registers.completed = false)
    (starts : Text.startsWord line.text = true) :
    (registers.parseLine line).map progress =
      (registers.progress.step line).mapError .refused := by
  obtain ⟨schema, diagnostics, rfl | rfl | ⟨current, rfl⟩⟩ := consistent.shape isOpen
  · exact map_progress_parseLine_top schema diagnostics starts
  · exact map_progress_parseLine_schema schema diagnostics starts
  · exact map_progress_parseLine_variant schema diagnostics starts current

/-- A line that is put aside is a line that is ignored. -/
theorem step_of_completed
    {registers : Registers}
    (isCompleted : registers.completed = true)
    (line : ContentLine) :
    registers.progress.step line = .ok (registers.putAside line).progress := by
  obtain ⟨level, schema, current, diagnostics, completed, remaining⟩ := registers
  simp only at isCompleted
  subst isCompleted
  cases remaining with
  | nil => rfl
  | cons first more => simp [progress, scope, putAside, Progress.step]

/-! ## Raw lines -/

theorem load_eq (registers : Registers) (number : Nat) (raw : Text) :
    registers.load number raw =
      if ContentLine.isContent (Text.trim raw) then
        if registers.completed then
          .ok (registers.putAside ⟨number, Text.trim raw⟩)
        else
          registers.parseLine ⟨number, Text.trim raw⟩
      else
        .ok registers := by
  unfold load ContentLine.isContent
  cases Text.trim raw with
  | nil => rfl
  | cons first rest => by_cases comment : first = '#' <;> simp [comment]

/-- A raw line keeps registers consistent, is accounted for if it is content, and at most
adds a variant. -/
theorem load_keeps
    {registers next : Registers}
    {number : Nat}
    {raw : Text}
    (consistent : registers.IsConsistent)
    (loaded : registers.load number raw = .ok next) :
    next.IsConsistent ∧
      (∀ content,
        registers.Accounts content →
        next.Accounts (content ++ ContentLine.numberedFrom number [raw])) ∧
      registers.schema.variants <+: next.schema.variants := by
  rw [load_eq] at loaded
  cases isContent : ContentLine.isContent (Text.trim raw) with
  | false =>
      simp only [isContent, Bool.false_eq_true, if_false, Except.ok.injEq] at loaded
      subst loaded
      simpa [ContentLine.numberedFrom, isContent] using consistent
  | true =>
      simp only [ContentLine.numberedFrom, isContent, if_true] at loaded ⊢
      cases isOpen : registers.completed with
      | true =>
          simp only [isOpen, if_true, Except.ok.injEq] at loaded
          subst loaded
          exact
            ⟨consistent.putAside isOpen _, fun _ accounts => accounts.putAside _,
              List.prefix_rfl⟩
      | false =>
          rw [isOpen, if_neg (by simp)] at loaded
          have starts := ContentLine.startsWord_of_isContent isContent
          have reads := reads_of_parseLine starts loaded
          exact
            ⟨reads.isConsistent consistent isOpen,
              fun _ => reads.accounts (consistent.remaining_of_open isOpen),
              reads.variants_isPrefix⟩

/-- A raw line is read if it is content, and never for want of what is looked up. -/
theorem map_progress_load
    {registers : Registers}
    (consistent : registers.IsConsistent)
    (number : Nat)
    (raw : Text) :
    (registers.load number raw).map progress =
      if ContentLine.isContent (Text.trim raw) then
        (registers.progress.step ⟨number, Text.trim raw⟩).mapError .refused
      else
        .ok registers.progress := by
  rw [load_eq]
  cases isContent : ContentLine.isContent (Text.trim raw) with
  | false => rfl
  | true =>
      simp only [if_true]
      cases isOpen : registers.completed with
      | false =>
          have starts := ContentLine.startsWord_of_isContent isContent
          exact map_progress_parseLine consistent isOpen starts
      | true =>
          rw [step_of_completed isOpen]
          rfl

/-! ## Runs of the loop -/

theorem loop_cons_eq_ok_iff
    (registers last : Registers)
    (number : Nat)
    (raw : Text)
    (rest : List Text) :
    registers.loop number (raw :: rest) = .ok last ↔
      ∃ next,
        registers.load number raw = .ok next ∧ next.loop (number + 1) rest = .ok last := by
  rw [loop]
  cases registers.load number raw with
  | ok next => simp
  | error stop => cases stop <;> simp

/-- The loop keeps what each of its lines keeps. -/
theorem loop_keeps
    {registers last : Registers}
    {number : Nat}
    {lines : List Text}
    (consistent : registers.IsConsistent)
    (looped : registers.loop number lines = .ok last) :
    last.IsConsistent ∧
      (∀ content,
        registers.Accounts content →
        last.Accounts (content ++ ContentLine.numberedFrom number lines)) ∧
      registers.schema.variants <+: last.schema.variants := by
  induction lines generalizing registers number with
  | nil =>
      rw [loop, Except.ok.injEq] at looped
      subst looped
      simpa [ContentLine.numberedFrom] using consistent
  | cons raw rest induction =>
      obtain ⟨next, loaded, continued⟩ := (loop_cons_eq_ok_iff ..).mp looped
      obtain ⟨nextConsistent, nextAccounts, kept⟩ := load_keeps consistent loaded
      obtain ⟨lastConsistent, lastAccounts, keptOn⟩ := induction nextConsistent continued
      refine ⟨lastConsistent, ?_, kept.trans keptOn⟩
      intro content accounts
      have accounted := lastAccounts _ (nextAccounts content accounts)
      rw [List.append_assoc] at accounted
      exact (ContentLine.numberedFrom_append number [raw] rest) ▸ accounted

/-- The loop runs as reading runs, and never stops for want of what is looked up. -/
theorem map_progress_loop
    {registers : Registers}
    (consistent : registers.IsConsistent)
    (number : Nat)
    (lines : List Text) :
    (registers.loop number lines).map progress =
      (registers.progress.run (ContentLine.numberedFrom number lines)).mapError .rejected := by
  induction lines generalizing registers number with
  | nil => rfl
  | cons raw rest induction =>
      have simulated := map_progress_load consistent number raw
      cases isContent : ContentLine.isContent (Text.trim raw) with
      | false =>
          have skipped : registers.load number raw = .ok registers := by
            rw [load_eq, isContent]
            rfl
          simp only [loop, skipped, ContentLine.numberedFrom, isContent]
          exact induction consistent (number + 1)
      | true =>
          simp only [loop, ContentLine.numberedFrom, isContent, if_true, Progress.run]
          rw [isContent, if_pos rfl] at simulated
          rcases eq_or_eq_of_map_eq simulated with
            ⟨next, loaded, stepped⟩ | ⟨fault, loaded, stepped⟩
          · rw [loaded, stepped]
            exact induction (load_keeps consistent loaded).1 (number + 1)
          · rw [loaded, stepped]
            rfl

theorem finish_eq
    {registers : Registers}
    (consistent : registers.IsConsistent) :
    registers.finish = .ok registers.progress.finish := by
  cases isOpen : registers.completed with
  | false =>
      obtain ⟨schema, diagnostics, rfl | rfl | ⟨current, rfl⟩⟩ := consistent.shape isOpen
      · rfl
      · rfl
      · rfl
  | true =>
      simp only [finish, isOpen, if_true, progress, scope, Progress.finish]
      cases registers.remaining with
      | nil => simp [Progress.trailing]
      | cons first more => rfl

/-! ## Documents -/

theorem loop_append
    {registers middle : Registers}
    {number : Nat}
    {above : List Text}
    (looped : registers.loop number above = .ok middle)
    (below : List Text) :
    registers.loop number (above ++ below) = middle.loop (number + above.length) below := by
  induction above generalizing registers number with
  | nil =>
      rw [loop, Except.ok.injEq] at looped
      rw [List.nil_append, looped]
      rfl
  | cons raw rest induction =>
      obtain ⟨next, loaded, continued⟩ := (loop_cons_eq_ok_iff ..).mp looped
      have shifted : number + (raw :: rest).length = number + 1 + rest.length := by
        simp only [List.length_cons]
        omega
      rw [List.cons_append, loop, loaded, shifted]
      exact induction continued

theorem isConsistent_initial : IsConsistent {} := by
  constructor <;> simp

theorem accounts_initial : Accounts {} [] :=
  ⟨[], rfl, rfl⟩

theorem map_progress_document (lines : List Text) :
    (loop {} 1 lines).map progress =
      (Progress.run {} (ContentLine.ofLines lines)).mapError .rejected :=
  map_progress_loop isConsistent_initial 1 lines

theorem document_keeps
    {lines : List Text}
    {last : Registers}
    (looped : loop {} 1 lines = .ok last) :
    last.IsConsistent ∧ last.Accounts (ContentLine.ofLines lines) := by
  obtain ⟨consistent, accounts, -⟩ := loop_keeps isConsistent_initial looped
  exact ⟨consistent, accounts [] accounts_initial⟩

/-- The loop answers what the reading answers. -/
theorem parse?_eq (lines : List Text) : parse? lines = some (Reading.ofLines lines) := by
  rw [parse?, Reading.ofLines]
  rcases eq_or_eq_of_map_eq (map_progress_document lines) with
    ⟨last, looped, ran⟩ | ⟨reading, looped, ran⟩
  · rw [looped, Progress.read_of_run ran]
    simp only [finish_eq (document_keeps looped).1, Except.toOption]
  · rw [looped, Progress.read_of_run_error ran]

theorem schema_of_finish
    {final : Progress}
    {schema : Schema}
    {diagnostics : List Diagnostic}
    (finished : final.finish = .completed schema diagnostics) :
    final.schema = schema := by
  obtain ⟨scope, _, _⟩ := final
  cases scope <;> cases finished <;> rfl

/-- A schema is completed as the registers hold it after all lines. -/
theorem exists_loop_of_completed
    {lines : List Text}
    {schema : Schema}
    {diagnostics : List Diagnostic}
    (completed : Reading.ofLines lines = .completed schema diagnostics) :
    ∃ last, loop {} 1 lines = .ok last ∧ last.schema = schema := by
  obtain ⟨final, ran, finished⟩ := Progress.exists_run_of_completed completed
  rcases eq_or_eq_of_map_eq (map_progress_document lines) with
    ⟨last, looped, same⟩ | ⟨reading, -, aborted⟩
  · refine ⟨last, looped, ?_⟩
    rw [same, Except.ok.injEq] at ran
    subst ran
    exact schema_of_finish finished
  · rw [aborted] at ran
    cases ran

/--
The registers are consistent and account for the lines wherever the loop has got to, at every
place where the run of the reading has got to as well; the variants that they hold stay as they
are; and as no look-up fails, the loop answers what the reading answers.
-/
theorem registers_consistent_throughout (lines : List Text) :
    parse? lines = some (Reading.ofLines lines) ∧
      ∀ above, above <+: lines →
        (loop {} 1 above).map progress =
            (Progress.run {} (ContentLine.ofLines above)).mapError .rejected ∧
          ∀ registers, loop {} 1 above = .ok registers →
            registers.IsConsistent ∧
              registers.Accounts (ContentLine.ofLines above) ∧
              (∀ further later,
                above <+: further →
                further <+: lines →
                loop {} 1 further = .ok later →
                registers.schema.variants <+: later.schema.variants) ∧
              ∀ schema diagnostics,
                Reading.ofLines lines = .completed schema diagnostics →
                registers.schema.variants <+: schema.variants := by
  refine ⟨parse?_eq lines, ?_⟩
  intro above initial
  refine ⟨map_progress_document above, ?_⟩
  intro registers looped
  obtain ⟨consistent, accounts⟩ := document_keeps looped
  have kept {further : List Text} {later : Registers}
      (longer : above <+: further)
      (reached : loop {} 1 further = .ok later) :
      registers.schema.variants <+: later.schema.variants := by
    obtain ⟨between, rfl⟩ := longer
    rw [loop_append looped] at reached
    exact (loop_keeps consistent reached).2.2
  refine ⟨consistent, accounts, fun _ _ longer _ reached => kept longer reached, ?_⟩
  intro schema diagnostics completed
  obtain ⟨last, reached, rfl⟩ := exists_loop_of_completed completed
  exact kept initial reached

/-- Two variants, with a comment between them, and a line after the schema block. -/
def twoVariants : List Text :=
  ["Shape \x7b", "Dot \x7b", "\x7d", "# note", "Line \x7b", "int length", "\x7d", "\x7d", "end"]

/-- The registers in the block of the second variant. -/
def insideLine : Registers :=
  { level := .variant
    schema := { name := "Shape", variants := [{ name := "Dot" }] }
    current := some { name := "Line", fields := [⟨"int", "length"⟩] } }

theorem registers_of_twoVariants :
    twoVariants.take 6 <+: twoVariants ∧
      loop {} 1 (twoVariants.take 6) = .ok insideLine ∧
      insideLine.IsConsistent ∧
      insideLine.Accounts (ContentLine.ofLines (twoVariants.take 6)) ∧
      ∃ schema diagnostics,
        Reading.ofLines twoVariants = .completed schema diagnostics ∧
          insideLine.schema.variants <+: schema.variants := by
  have initial := List.take_prefix 6 twoVariants
  have looped : loop {} 1 (twoVariants.take 6) = .ok insideLine := rfl
  obtain ⟨consistent, accounts, -, kept⟩ :=
    ((registers_consistent_throughout twoVariants).2 _ initial).2 _ looped
  exact ⟨initial, looped, consistent, accounts, _, _, rfl, kept _ _ rfl⟩

end Registers

end TaggedUnion
