import TaggedUnion.Proofs.Document.Run
import TaggedUnion.Proofs.Text.Lines

/-!
# Conventions for ending lines

The lines of a document can be held in one text, each ended by a line feed, by a
carriage return or by both, and the last of them by nothing.  Cut into lines
again, such a text gives the lines back; only an empty last line is lost when
nothing ends it.  A document loses no content with it and no line changes its
number, so the text is read as its lines are.
-/

namespace TaggedUnion

/-- What ends a line. -/
inductive Newline where
  | lineFeed
  | carriageReturn
  | returnAndFeed
deriving DecidableEq, Repr

namespace Newline

/-- The characters that end a line. -/
def text : Newline → Text
  | lineFeed => ['\n']
  | carriageReturn => ['\r']
  | returnAndFeed => ['\r', '\n']

/-- The text of lines that are all ended. -/
def terminate (newline : Newline) (lines : List Text) : Text :=
  lines.flatMap (· ++ newline.text)

/-- The text of lines that are all ended but for the last. -/
def separate (newline : Newline) (lines : List Text) : Text :=
  Text.joinWith newline.text lines

variable {newline : Newline} {lines : List Text}

theorem terminate_cons (newline : Newline) (line : Text) (rest : List Text) :
    newline.terminate (line :: rest) = line ++ (newline.text ++ newline.terminate rest) := by
  rw [terminate, List.flatMap_cons, List.append_assoc]
  rfl

theorem separate_cons_cons (newline : Newline) (line next : Text) (rest : List Text) :
    newline.separate (line :: next :: rest) =
      line ++ (newline.text ++ newline.separate (next :: rest)) := by
  rw [separate, Text.joinWith, List.intercalate_cons_cons, List.append_assoc]
  rfl

/-! ## Cutting the text again -/

/--
What ends a line opens no second one.  A carriage return must not be followed by
a line feed, since it would then end the line together with it.
-/
theorem lines_append
    {line rest : Text}
    (free : Text.BreakFree line)
    (apart : newline = carriageReturn → '\n' ∉ rest) :
    Text.lines (line ++ (newline.text ++ rest)) = line :: Text.lines rest := by
  induction line with
  | nil =>
      cases newline with
      | lineFeed => rfl
      | returnAndFeed => rfl
      | carriageReturn =>
          have alone : ∀ more, rest ≠ '\n' :: more := by
            rintro more rfl
            exact apart rfl List.mem_cons_self
          rw [List.nil_append, text, List.singleton_append, Text.lines]
          · rfl
          · exact fun more _ => alone more
  | cons character line induction =>
      rw [List.cons_append,
        Text.lines_cons_of_not_break (free character List.mem_cons_self),
        induction fun other member => free other (List.mem_cons_of_mem _ member)]
      rfl

theorem newline_notMem_terminate
    (free : ∀ line ∈ lines, Text.BreakFree line) :
    '\n' ∉ carriageReturn.terminate lines := by
  intro member
  rcases List.mem_flatMap.mp member with ⟨line, inLines, inLine⟩
  rcases List.mem_append.mp inLine with inside | atEnd
  · exact (free line inLines).newline_notMem inside
  · simp [text] at atEnd

theorem newline_notMem_separate
    (free : ∀ line ∈ lines, Text.BreakFree line) :
    '\n' ∉ carriageReturn.separate lines := by
  have closed : Text.IsClosed ('\n' ∉ ·) :=
    ⟨List.not_mem_nil, fun first second => by simp [first, second]⟩
  exact closed.joinWith (by simp [text]) fun line member => (free line member).newline_notMem

/-- Lines that are all ended are found again. -/
theorem lines_terminate
    (newline : Newline)
    (free : ∀ line ∈ lines, Text.BreakFree line) :
    Text.lines (newline.terminate lines) = lines := by
  induction lines with
  | nil => rfl
  | cons line rest induction =>
      rw [List.forall_mem_cons] at free
      rw [terminate_cons, lines_append free.1, induction free.2]
      rintro rfl
      exact newline_notMem_terminate free.2

/-- Of lines that are ended but for the last, that one is lost if it is empty. -/
theorem lines_separate
    (newline : Newline)
    (free : ∀ line ∈ lines, Text.BreakFree line) :
    Text.lines (newline.separate lines) = lines ∨
      lines = Text.lines (newline.separate lines) ++ [[]] := by
  induction lines with
  | nil => exact Or.inl rfl
  | cons line rest induction =>
      rw [List.forall_mem_cons] at free
      cases rest with
      | nil =>
          have alone : newline.separate [line] = line := by
            simp [separate, Text.joinWith]
          rw [alone]
          by_cases empty : line = []
          · rw [empty]
            exact Or.inr rfl
          · exact Or.inl (Text.lines_of_breakFree free.1 empty)
      | cons next rest =>
          have apart : newline = carriageReturn → '\n' ∉ newline.separate (next :: rest) := by
            rintro rfl
            exact newline_notMem_separate free.2
          rw [separate_cons_cons, lines_append free.1 apart]
          rcases induction free.2 with found | lost
          · exact Or.inl (by rw [found])
          · exact Or.inr (congrArg (line :: ·) lost)

end Newline

namespace Reading

/-- An empty last line is not read. -/
theorem ofLines_concat_empty (lines : List Text) :
    ofLines (lines ++ [[]]) = ofLines lines := by
  have nothing (number : Nat) : ContentLine.numberedFrom number [[]] = [] := rfl
  rw [ofLines, ContentLine.ofLines, ContentLine.numberedFrom_append, nothing, List.append_nil]
  rfl

/--
Lines without a break are read from the text that holds them as they are read by
themselves, whatever ends them and whether or not it ends the last.
-/
theorem ofText_of_newlines
    (newline : Newline)
    {lines : List Text}
    (free : ∀ line ∈ lines, Text.BreakFree line) :
    ofText (newline.terminate lines) = ofLines lines ∧
      ofText (newline.separate lines) = ofLines lines := by
  constructor
  · rw [ofText, Newline.lines_terminate newline free]
  · rw [ofText]
    rcases Newline.lines_separate newline free with found | lost
    · rw [found]
    · exact (ofLines_concat_empty _).symm.trans (congrArg ofLines lost.symm)

/-- Lines among which the empty ones are first, last and in between. -/
def spacedLines : List Text :=
  ["", "Switch \x7b", "", "", "On \x7b", "\x7d", "\x7d", "", "more", ""]

/-- The lines that are named keep their numbers in a text of carriage returns. -/
theorem ofText_spacedLines :
    (∀ line ∈ spacedLines, Text.BreakFree line) ∧
      (ofLines spacedLines).diagnostics.map (·.lineNumber) = [some 7, some 9] ∧
      ofText (Newline.carriageReturn.terminate spacedLines) = ofLines spacedLines ∧
      ofText (Newline.carriageReturn.separate spacedLines) = ofLines spacedLines := by
  have free : ∀ line ∈ spacedLines, Text.BreakFree line := by decide
  exact ⟨free, by decide, ofText_of_newlines .carriageReturn free⟩

end Reading

end TaggedUnion
