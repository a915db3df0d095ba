import TaggedUnion.Proofs.Text.Words

/-!
# Lines without breaks

A text is free of breaks when none of its characters ends a line.  The lines
of a text are free of breaks, and so are words.  Lines that are free of breaks
are recovered from the text that they make, whether it is cut at all line
breaks or only at line feeds.
-/

namespace TaggedUnion.Text

/-! ## Properties that appending keeps -/

/-- A property that the empty text has and appending keeps. -/
structure IsClosed (property : Text → Prop) : Prop where
  empty : property []
  append : ∀ {first second}, property first → property second → property (first ++ second)

section

variable {property : Text → Prop} {pieces : List Text}

theorem IsClosed.cat
    (closed : IsClosed property)
    (ofPieces : ∀ piece ∈ pieces, property piece) :
    property (cat pieces) := by
  unfold Text.cat
  induction pieces with
  | nil => exact closed.empty
  | cons piece rest induction =>
      rw [List.flatten_cons]
      exact closed.append (ofPieces piece List.mem_cons_self)
        (induction fun other member => ofPieces other (List.mem_cons_of_mem _ member))

theorem IsClosed.joinWith
    (closed : IsClosed property)
    {separator : Text}
    (ofSeparator : property separator)
    (ofPieces : ∀ piece ∈ pieces, property piece) :
    property (joinWith separator pieces) := by
  unfold Text.joinWith
  induction pieces with
  | nil => exact closed.empty
  | cons piece rest induction =>
      have ofPiece := ofPieces piece List.mem_cons_self
      have ofRest :=
        induction fun other member => ofPieces other (List.mem_cons_of_mem _ member)
      cases rest with
      | nil => simpa using ofPiece
      | cons next rest =>
          rw [List.intercalate_cons_cons]
          exact closed.append (closed.append ofPiece ofSeparator) ofRest

end

/-! ## Texts free of breaks -/

/-- No character of the text ends a line. -/
def BreakFree (text : Text) : Prop :=
  ∀ character ∈ text, isLineBreak character = false

instance (text : Text) : Decidable (BreakFree text) :=
  decidable_of_iff (text.any isLineBreak = false) (by simp [BreakFree])

@[simp]
theorem breakFree_nil : BreakFree [] := by
  simp [BreakFree]

theorem breakFree_cons (character : Char) (rest : Text) :
    BreakFree (character :: rest) ↔ isLineBreak character = false ∧ BreakFree rest :=
  List.forall_mem_cons

@[simp]
theorem breakFree_append (first second : Text) :
    BreakFree (first ++ second) ↔ BreakFree first ∧ BreakFree second := by
  simp only [BreakFree, List.mem_append]
  constructor
  · intro free
    exact ⟨fun character member => free character (Or.inl member),
      fun character member => free character (Or.inr member)⟩
  · rintro ⟨firstFree, secondFree⟩ character (member | member)
    · exact firstFree character member
    · exact secondFree character member

@[simp]
theorem breakFree_cat_nil : BreakFree (cat []) :=
  breakFree_nil

@[simp]
theorem breakFree_cat_cons (piece : Text) (pieces : List Text) :
    BreakFree (cat (piece :: pieces)) ↔ BreakFree piece ∧ BreakFree (cat pieces) := by
  rw [cat, List.flatten_cons, breakFree_append, ← cat]

theorem getLast?_cat_nil : (cat []).getLast? = none :=
  rfl

/-- Pieces end as the last of them does that is not empty. -/
theorem getLast?_cat_cons (piece : Text) (pieces : List Text) :
    (cat (piece :: pieces)).getLast? = (cat pieces).getLast?.or piece.getLast? :=
  List.getLast?_append

theorem getLast?_cat_ending
    {first middle ending : Text}
    {last : Char}
    (ends : ending.getLast? = some last) :
    (cat [first, middle, ending]).getLast? = some last := by
  rw [getLast?_cat_cons, getLast?_cat_cons, getLast?_cat_cons, getLast?_cat_nil, ends]
  rfl

theorem isClosed_breakFree : IsClosed BreakFree where
  empty := breakFree_nil
  append firstFree secondFree := (breakFree_append _ _).mpr ⟨firstFree, secondFree⟩

theorem isLineBreak_eq_false_of_visible
    {character : Char}
    (visible : isBlank character = false) :
    isLineBreak character = false := by
  cases breaks : isLineBreak character with
  | false => rfl
  | true =>
      rw [isBlank_of_isLineBreak breaks] at visible
      cases visible

theorem IsWord.breakFree {word : Text} (isWord : IsWord word) : BreakFree word :=
  fun character member =>
    isLineBreak_eq_false_of_visible (isWord.blankFree character member)

/-- A number is a word. -/
theorem isWord_ofNat (number : Nat) : IsWord (ofNat number) := by
  refine ⟨Nat.toDigits_ne_nil, ?_⟩
  intro character member
  have digit := Nat.isDigit_of_mem_toDigits (by decide) (by decide) member
  simp only [Char.isDigit, Bool.and_eq_true, decide_eq_true_eq, ge_iff_le,
    UInt32.le_iff_toNat_le] at digit
  have lower : 48 ≤ character.toNat := digit.1
  have upper : character.toNat ≤ 57 := digit.2
  rw [Bool.eq_false_iff]
  simp only [isBlank, ne_eq, Bool.or_eq_true, Bool.and_eq_true, decide_eq_true_eq,
    beq_iff_eq]
  omega

/-- Numbers are told apart by their digits. -/
theorem ofNat_injective : Function.Injective ofNat := by
  intro first second same
  have value (number : Nat) : Nat.ofDigitChars 10 (ofNat number) 0 = number := by
    simp [ofNat]
  rw [← value first, ← value second, same]

theorem BreakFree.newline_notMem {text : Text} (free : BreakFree text) : '\n' ∉ text := by
  intro member
  exact absurd (free '\n' member) (by decide)

theorem BreakFree.of_subset
    {part text : Text}
    (free : BreakFree text)
    (subset : ∀ character ∈ part, character ∈ text) :
    BreakFree part :=
  fun character member => free character (subset character member)

/-! ## Cutting at line breaks -/

/-- A character that is no carriage return ends a line by itself or belongs to one. -/
theorem lines_cons_of_ne_return
    {character : Char}
    (notReturn : character ≠ '\r')
    (rest : Text) :
    lines (character :: rest) =
      if isLineBreak character then [] :: lines rest else consLine character (lines rest) := by
  rw [lines]
  rintro _ rfl
  exact (notReturn rfl).elim

theorem lines_cons_of_not_break
    {character : Char}
    (free : isLineBreak character = false)
    (rest : Text) :
    lines (character :: rest) = consLine character (lines rest) := by
  have notReturn : character ≠ '\r' := by
    rintro rfl
    exact absurd free (by decide)
  rw [lines_cons_of_ne_return notReturn, if_neg (by simp [free])]

/-- A break ends a line by itself, unless it is a carriage return before a line feed. -/
theorem lines_cons_of_break
    {character : Char}
    {rest : Text}
    (breaks : isLineBreak character = true)
    (apart : character = '\r' → rest.head? ≠ some '\n') :
    lines (character :: rest) = [] :: lines rest := by
  rw [lines, if_pos breaks]
  rintro more isReturn rfl
  exact apart isReturn rfl

theorem lines_ne_nil {text : Text} (nonempty : text ≠ []) : lines text ≠ [] := by
  fun_cases lines text with
  | case1 => exact (nonempty rfl).elim
  | case2 rest => simp
  | case3 character rest apart breaks => simp
  | case4 character rest apart keeps => cases lines rest <;> simp [consLine]

/-- A text has the same lines after its carriage returns have been read as line feeds. -/
theorem lines_unifyNewlines (text : Text) : lines (unifyNewlines text) = lines text := by
  fun_induction unifyNewlines text with
  | case1 => rfl
  | case2 rest induction =>
      rw [lines_cons_of_ne_return (by decide), induction, lines]
      rfl
  | case3 rest alone induction =>
      rw [lines_cons_of_ne_return (by decide), induction, lines]
      · rfl
      · exact fun more _ => alone more
  | case4 character rest _ notReturn induction =>
      rw [lines_cons_of_ne_return notReturn, lines_cons_of_ne_return notReturn, induction]

/-- A line feed after a line that is free of breaks ends that line. -/
theorem lines_append_newline
    {line : Text}
    (free : BreakFree line)
    (rest : Text) :
    lines (line ++ '\n' :: rest) = line :: lines rest := by
  induction line with
  | nil => rfl
  | cons character line induction =>
      rw [List.cons_append,
        lines_cons_of_not_break (free character List.mem_cons_self),
        induction fun other member => free other (List.mem_cons_of_mem _ member)]
      rfl

/-- A line feed ends a line wherever it stands, so a text may be cut behind it. -/
theorem lines_append_feed (front rest : Text) :
    lines (front ++ '\n' :: rest) = lines (front ++ ['\n']) ++ lines rest := by
  fun_induction lines front with
  | case1 => rfl
  | case2 more induction => simp only [List.cons_append, lines, induction]
  | case3 character more apart breaks induction =>
      cases more with
      | nil =>
          by_cases isReturn : character = '\r'
          · rw [isReturn]
            rfl
          · rw [List.singleton_append, List.singleton_append, lines_cons_of_ne_return isReturn,
              lines_cons_of_ne_return isReturn, if_pos breaks, if_pos breaks]
            rfl
      | cons next more =>
          have unpaired (text : Text) :
              character = '\r' → (next :: more ++ text).head? ≠ some '\n' := by
            intro isReturn same
            exact apart more isReturn (by rw [Option.some.inj same])
          calc
            lines (character :: (next :: more ++ '\n' :: rest))
            _ = [] :: lines (next :: more ++ '\n' :: rest) :=
                lines_cons_of_break breaks (unpaired _)
            _ = ([] :: lines (next :: more ++ ['\n'])) ++ lines rest :=
                congrArg ([] :: ·) induction
            _ = lines (character :: (next :: more ++ ['\n'])) ++ lines rest := by
                rw [lines_cons_of_break breaks (unpaired _)]
  | case4 character more apart keeps induction =>
      have free : isLineBreak character = false := by simpa using keeps
      rw [List.cons_append, List.cons_append, lines_cons_of_not_break free,
        lines_cons_of_not_break free, induction]
      cases ended : lines (more ++ ['\n']) with
      | nil => exact (lines_ne_nil (by simp) ended).elim
      | cons line others => rfl

/-- A text without a break is its only line. -/
theorem lines_of_breakFree
    {line : Text}
    (free : BreakFree line)
    (nonempty : line ≠ []) :
    lines line = [line] := by
  induction line with
  | nil => exact (nonempty rfl).elim
  | cons character rest induction =>
      rw [lines_cons_of_not_break (free character List.mem_cons_self)]
      by_cases single : rest = []
      · rw [single]
        rfl
      · rw [induction (fun other member => free other (List.mem_cons_of_mem _ member)) single]
        rfl

/-- The lines of a text are free of breaks. -/
theorem breakFree_of_mem_lines
    {text line : Text}
    (member : line ∈ lines text) :
    BreakFree line := by
  fun_induction lines text generalizing line with
  | case1 => simp at member
  | case2 rest induction =>
      rcases List.mem_cons.mp member with rfl | later
      · exact breakFree_nil
      · exact induction later
  | case3 character rest _ breaks induction =>
      rcases List.mem_cons.mp member with rfl | later
      · exact breakFree_nil
      · exact induction later
  | case4 character rest _ keeps induction =>
      have free : isLineBreak character = false := by simpa using keeps
      have extended {inner : Text} (innerFree : BreakFree inner) :
          BreakFree (character :: inner) :=
        (breakFree_cons _ _).mpr ⟨free, innerFree⟩
      cases split : lines rest with
      | nil =>
          rw [split, consLine] at member
          rw [List.mem_singleton.mp member]
          exact extended breakFree_nil
      | cons first more =>
          rw [split, consLine] at member
          rcases List.mem_cons.mp member with rfl | later
          · exact extended (induction (by simp [split]))
          · exact induction (by simp [split, later])

/-! ## Joining lines -/

@[simp]
theorem unlines_nil : unlines [] = [] :=
  rfl

@[simp]
theorem unlines_cons (line : Text) (rest : List Text) :
    unlines (line :: rest) = line ++ '\n' :: unlines rest := by
  simp [unlines]

@[simp]
theorem unlines_append (first second : List Text) :
    unlines (first ++ second) = unlines first ++ unlines second := by
  simp [unlines]

/-- Lines that are free of breaks are cut off one by one from the text that they begin. -/
theorem lines_unlines_append
    {group : List Text}
    (free : ∀ line ∈ group, BreakFree line)
    (text : Text) :
    lines (unlines group ++ text) = group ++ lines text := by
  induction group with
  | nil => rfl
  | cons line rest induction =>
      rw [unlines_cons, List.append_assoc, List.cons_append,
        lines_append_newline (free line List.mem_cons_self),
        induction fun other member => free other (List.mem_cons_of_mem _ member)]
      rfl

/-- Lines that are free of breaks are the lines of the text that they make. -/
theorem lines_unlines
    {group : List Text}
    (free : ∀ line ∈ group, BreakFree line) :
    lines (unlines group) = group := by
  have whole := lines_unlines_append free []
  rwa [List.append_nil, lines, List.append_nil] at whole

/-- Lines that are free of breaks are found again below any others. -/
theorem lines_unlines_below
    (above : List Text)
    {group : List Text}
    (free : ∀ line ∈ group, BreakFree line) :
    lines (unlines above ++ unlines group) = lines (unlines above) ++ group := by
  rcases List.eq_nil_or_concat above with rfl | ⟨others, last, rfl⟩
  · exact lines_unlines free
  · have ended : unlines (others ++ [last]) = unlines others ++ last ++ ['\n'] := by simp
    rw [List.concat_eq_append, ended, List.append_assoc _ ['\n'], List.singleton_append,
      lines_append_feed, lines_unlines free]

/-- Lines without a line feed are determined by the text that they make. -/
theorem unlines_inj
    {left right : List Text}
    (leftFree : ∀ line ∈ left, '\n' ∉ line)
    (rightFree : ∀ line ∈ right, '\n' ∉ line)
    (equal : unlines left = unlines right) :
    left = right := by
  induction left generalizing right with
  | nil =>
      cases right with
      | nil => rfl
      | cons line right => simp at equal
  | cons line left induction =>
      cases right with
      | nil => simp at equal
      | cons other right =>
          rw [unlines_cons, unlines_cons] at equal
          obtain ⟨rfl, -, remaining⟩ :=
            append_mark_inj (· ≠ '\n')
              (fun character member newline =>
                leftFree line List.mem_cons_self (newline ▸ member))
              (fun character member newline =>
                rightFree other List.mem_cons_self (newline ▸ member))
              (by simp) (by simp) equal
          rw [induction
            (fun inner member => leftFree inner (List.mem_cons_of_mem _ member))
            (fun inner member => rightFree inner (List.mem_cons_of_mem _ member))
            remaining]

/-- What is left of joined lines after some characters begins with the end of a line. -/
theorem exists_line_of_suffix_unlines
    {group : List Text}
    {tail : Text}
    (suffix : tail <:+ unlines group)
    (nonempty : tail ≠ []) :
    ∃ line ∈ group, ∃ ending rest, tail = ending ++ '\n' :: rest ∧ ending <:+ line := by
  induction group with
  | nil => exact (nonempty (List.suffix_nil.mp suffix)).elim
  | cons line group induction =>
      rw [unlines_cons] at suffix
      obtain ⟨start, whole⟩ := suffix
      rcases List.append_eq_append_iff.mp whole with
        ⟨ending, rfl, rfl⟩ | ⟨between, -, remaining⟩
      · exact ⟨_, List.mem_cons_self, ending, _, rfl, List.suffix_append _ _⟩
      · rcases List.suffix_cons_iff.mp ⟨between, remaining.symm⟩ with rfl | later
        · exact ⟨line, List.mem_cons_self, [], _, rfl, List.nil_suffix⟩
        · obtain ⟨found, member, rest⟩ := induction later
          exact ⟨found, List.mem_cons_of_mem _ member, rest⟩

/-- What joined lines begin with has lines with which they begin. -/
theorem exists_line_of_mem_lines
    {group : List Text}
    {front line : Text}
    (free : ∀ line ∈ group, BreakFree line)
    (begins : front <+: unlines group)
    (member : line ∈ lines front) :
    ∃ whole ∈ group, line <+: whole := by
  induction group generalizing front with
  | nil =>
      rw [List.prefix_nil.mp begins] at member
      cases member
  | cons first rest induction =>
      have inside (isFront : front <+: first) : ∃ whole ∈ first :: rest, line <+: whole := by
        have frontFree : BreakFree front :=
          (free first List.mem_cons_self).of_subset fun _ inFront => isFront.subset inFront
        have nonempty : front ≠ [] := by
          rintro rfl
          cases member
        rw [lines_of_breakFree frontFree nonempty] at member
        rw [List.mem_singleton.mp member]
        exact ⟨first, List.mem_cons_self, isFront⟩
      rcases begins with ⟨lost, whole⟩
      rw [unlines_cons] at whole
      rcases List.append_eq_append_iff.mp whole with ⟨ending, isFirst, -⟩ | ⟨more, isFront, below⟩
      · exact inside ⟨ending, isFirst.symm⟩
      · cases more with
        | nil =>
            rw [List.append_nil] at isFront
            exact inside (isFront ▸ List.prefix_rfl)
        | cons newline more =>
            rcases List.cons.inj below with ⟨rfl, remaining⟩
            rw [isFront, lines_append_newline (free first List.mem_cons_self)] at member
            rcases List.mem_cons.mp member with rfl | later
            · exact ⟨line, List.mem_cons_self, List.prefix_rfl⟩
            · rcases induction (fun other inRest => free other (List.mem_cons_of_mem _ inRest))
                ⟨lost, remaining.symm⟩ later with ⟨found, inRest, isPart⟩
              exact ⟨found, List.mem_cons_of_mem _ inRest, isPart⟩

end TaggedUnion.Text
