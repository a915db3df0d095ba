import TaggedUnion.Text.Occurrence
import TaggedUnion.Proofs.Text.Lines

/-!
# First occurrences

What follows a start, whether a part occurs, and where it occurs first, in
terms of how a text is put together.  A group of lines is first found where it
stands if no line above it ends like its first line, and a part with a blank is
first found behind the word that it follows.
-/

namespace TaggedUnion.Text

theorem after?_eq_some_iff {start text rest : Text} :
    after? start text = some rest ↔ text = start ++ rest := by
  induction start generalizing text with
  | nil => simp [after?]
  | cons expected start induction =>
      cases text with
      | nil => simp [after?]
      | cons character text =>
          rw [after?]
          split
          · rename_i same
            simp [same, induction]
          · rename_i different
            simp [Ne.symm different]

theorem after?_append (start rest : Text) : after? start (start ++ rest) = some rest :=
  after?_eq_some_iff.mpr rfl

theorem after?_eq_none_iff {start text : Text} :
    after? start text = none ↔ ¬ start <+: text := by
  rw [Option.eq_none_iff_forall_ne_some]
  constructor
  · rintro none ⟨rest, rfl⟩
    exact none rest (after?_append start rest)
  · intro notPrefix rest found
    exact notPrefix ⟨rest, (after?_eq_some_iff.mp found).symm⟩

/-- What stands between an opening and a closing part that begin and end the text. -/
def between? (opening closing text : Text) : Option Text :=
  (after? opening text).bind fun rest =>
    (after? closing.reverse rest.reverse).map List.reverse

theorem between?_eq_some_iff {opening closing text middle : Text} :
    between? opening closing text = some middle ↔ text = opening ++ (middle ++ closing) := by
  rw [between?, Option.bind_eq_some_iff]
  constructor
  · rintro ⟨rest, begins, ends⟩
    rcases Option.map_eq_some_iff.mp ends with ⟨reversed, isRest, rfl⟩
    rw [after?_eq_some_iff.mp begins, List.append_cancel_left_eq]
    simpa using congrArg List.reverse (after?_eq_some_iff.mp isRest)
  · rintro rfl
    refine ⟨middle ++ closing, after?_append _ _, ?_⟩
    rw [List.reverse_append, after?_append, Option.map_some, List.reverse_reverse]

theorem between?_append (opening middle closing : Text) :
    between? opening closing (opening ++ (middle ++ closing)) = some middle :=
  between?_eq_some_iff.mpr rfl

theorem between?_eq_none_of_start
    {opening text : Text}
    (otherStart : ¬ opening <+: text)
    (closing : Text) :
    between? opening closing text = none := by
  rw [between?, after?_eq_none_iff.mpr otherStart]
  rfl

theorem between?_eq_none_of_end
    {closing text : Text}
    {last : Char}
    (ends : closing.getLast? = some last)
    (otherEnd : text.getLast? ≠ some last)
    (opening : Text) :
    between? opening closing text = none := by
  rw [Option.eq_none_iff_forall_ne_some]
  intro middle found
  rw [between?_eq_some_iff.mp found, List.getLast?_append, List.getLast?_append, ends] at otherEnd
  exact otherEnd rfl

theorem hasPart_iff {part text : Text} : hasPart part text = true ↔ part <:+: text := by
  induction text with
  | nil => simp [hasPart, List.infix_nil]
  | cons character rest induction =>
      rw [hasPart, Bool.or_eq_true, induction, List.isPrefixOf_iff_prefix,
        List.infix_cons_iff]

theorem splitAt?_nil (text : Text) : splitAt? [] text = some ([], text) := by
  cases text <;> rfl

/-- A part that does not begin earlier is found where it stands. -/
theorem splitAt?_append
    {part before after : Text}
    (notEarlier :
      ∀ tail, tail <:+ before → tail ≠ [] → ¬ part <+: tail ++ (part ++ after)) :
    splitAt? part (before ++ (part ++ after)) = some (before, after) := by
  induction before with
  | nil =>
      rw [List.nil_append]
      cases whole : part ++ after with
      | nil =>
          obtain ⟨rfl, rfl⟩ := List.append_eq_nil_iff.mp whole
          rfl
      | cons character rest =>
          rw [splitAt?, ← whole, after?_append]
  | cons character before induction =>
      have here : after? part (character :: before ++ (part ++ after)) = none :=
        after?_eq_none_iff.mpr (notEarlier _ List.suffix_rfl (by simp))
      have later := induction fun tail suffix =>
        notEarlier tail (List.suffix_cons_iff.mpr (Or.inr suffix))
      rw [List.cons_append] at here ⊢
      rw [splitAt?, here, later]
      rfl

/-- Lines are found below lines that do not end like the first of them. -/
theorem splitAt?_unlines
    {mark : Text}
    {above more after : List Text}
    (markFree : '\n' ∉ mark)
    (aboveFree : ∀ line ∈ above, '\n' ∉ line)
    (endsElsewise : ∀ line ∈ above, ¬ mark <:+ line) :
    splitAt? (unlines (mark :: more)) (unlines (above ++ (mark :: more ++ after))) =
      some (unlines above, unlines after) := by
  rw [unlines_append, unlines_append]
  apply splitAt?_append
  intro tail suffix nonempty begins
  -- An earlier occurrence would begin inside a line and agree with it up to its line feed.
  obtain ⟨line, member, ending, rest, rfl, endingSuffix⟩ :=
    exists_line_of_suffix_unlines suffix nonempty
  obtain ⟨remaining, whole⟩ := begins
  simp only [unlines_cons, List.append_assoc, List.cons_append] at whole
  obtain ⟨rfl, -, -⟩ :=
    append_mark_inj (· ≠ '\n')
      (fun character inMark newline => markFree (newline ▸ inMark))
      (fun character inEnding newline =>
        aboveFree line member (newline ▸ endingSuffix.subset inEnding))
      (by simp) (by simp) whole
  exact endsElsewise line member endingSuffix

/-- A part that holds a blank is found right behind the word that it follows. -/
theorem splitAt?_of_word
    {part word : Text}
    (isWord : IsWord word)
    (hasBlank : part.any isBlank = true)
    (after : Text) :
    splitAt? part (word ++ (part ++ after)) = some (word, after) := by
  rcases List.any_eq_true.mp hasBlank with ⟨blank, member, isBlank⟩
  rcases Option.isSome_iff_exists.mp (List.find?_isSome.mpr ⟨blank, member, isBlank⟩) with
    ⟨first, found⟩
  rcases List.find?_eq_some_iff_append.mp found with ⟨firstBlank, start, more, rfl, visible⟩
  apply splitAt?_append
  rintro tail suffix nonempty ⟨rest, whole⟩
  -- the first blank of the text stands where the part has its own first blank
  have tailFree : ∀ character ∈ tail ++ start, Text.isBlank character = false := by
    intro character inFront
    rcases List.mem_append.mp inFront with inTail | inStart
    · exact isWord.blankFree character (suffix.subset inTail)
    · simpa using visible character inStart
  simp only [List.append_assoc, List.cons_append] at whole
  rw [← List.append_assoc tail start] at whole
  rcases append_mark_inj (Text.isBlank · = false)
      (fun character inStart => by simpa using visible character inStart) tailFree
      (by simp [firstBlank]) (by simp [firstBlank]) whole with ⟨same, -, -⟩
  exact nonempty (List.append_left_eq_self.mp same.symm)

theorem splitAt?_of_length_lt
    {part text : Text}
    (short : text.length < part.length) :
    splitAt? part text = none := by
  induction text with
  | nil =>
      cases part with
      | nil => cases short
      | cons character part => rfl
  | cons character rest induction =>
      have notHere : after? part (character :: rest) = none := by
        rw [after?_eq_none_iff]
        exact fun begins => absurd begins.length_le (by omega)
      rw [List.length_cons] at short
      rw [splitAt?, notHere, induction (by omega)]
      rfl

theorem eq_of_splitAt?
    {part text before after : Text}
    (found : splitAt? part text = some (before, after)) :
    text = before ++ (part ++ after) := by
  induction text generalizing before with
  | nil =>
      cases part with
      | nil =>
          cases found
          rfl
      | cons character part => cases found
  | cons character rest induction =>
      rw [splitAt?] at found
      cases here : after? part (character :: rest) with
      | some tail =>
          rw [here] at found
          cases found
          rw [after?_eq_some_iff.mp here]
          rfl
      | none =>
          rw [here] at found
          rcases Option.map_eq_some_iff.mp found with ⟨⟨head, tail⟩, later, same⟩
          cases same
          rw [induction later]
          rfl

/--
The first occurrence of a part stays where it is when the end of the text is lost,
unless it is lost with it.
-/
theorem splitAt?_of_append
    {part kept lost before after : Text}
    (found : splitAt? part (kept ++ lost) = some (before, after)) :
    (∃ rest, after = rest ++ lost ∧ splitAt? part kept = some (before, rest)) ∨
      splitAt? part kept = none ∧ after.length < lost.length := by
  induction kept generalizing before with
  | nil =>
      cases part with
      | nil =>
          rw [splitAt?_nil] at found ⊢
          cases found
          exact Or.inl ⟨[], rfl, rfl⟩
      | cons character part =>
          refine Or.inr ⟨rfl, ?_⟩
          have sizes := congrArg List.length (eq_of_splitAt? found)
          simp only [List.nil_append, List.length_append, List.length_cons] at sizes
          omega
  | cons character kept induction =>
      rw [List.cons_append, splitAt?] at found
      cases here : after? part (character :: (kept ++ lost)) with
      | some tail =>
          rw [here] at found
          cases found
          have whole : (character :: kept) ++ lost = part ++ after := after?_eq_some_iff.mp here
          by_cases fits : part <+: character :: kept
          · rcases fits with ⟨rest, isKept⟩
            refine Or.inl ⟨rest, ?_, ?_⟩
            · rw [← isKept, List.append_assoc] at whole
              exact (List.append_cancel_left whole).symm
            · rw [splitAt?, after?_eq_some_iff.mpr isKept.symm]
          · have short : (character :: kept).length < part.length := by
              rw [← Nat.not_le]
              intro longer
              exact fits (List.prefix_of_prefix_length_le ⟨after, whole.symm⟩
                (List.prefix_append _ lost) longer)
            have sizes := congrArg List.length whole
            simp only [List.length_append] at sizes
            exact Or.inr ⟨splitAt?_of_length_lt short, by omega⟩
      | none =>
          rw [here] at found
          rcases Option.map_eq_some_iff.mp found with ⟨⟨head, tail⟩, later, same⟩
          cases same
          have notHere : after? part (character :: kept) = none := by
            rw [after?_eq_none_iff] at here ⊢
            exact fun begins => here (begins.trans (List.prefix_append _ lost))
          rw [splitAt?, notHere]
          rcases induction later with ⟨rest, isAfter, stays⟩ | ⟨gone, short⟩
          · exact Or.inl ⟨rest, isAfter, by rw [stays]; rfl⟩
          · exact Or.inr ⟨by rw [gone]; rfl, short⟩

/-- The first line of joined lines and a part of one more ends at the first line feed. -/
theorem mem_of_eq_unlines_append
    {line part ending : Text}
    {group : List Text}
    (lineFree : '\n' ∉ line)
    (groupFree : ∀ line ∈ group, '\n' ∉ line)
    (partFree : '\n' ∉ part)
    (whole : line ++ '\n' :: ending = unlines group ++ part) :
    line ∈ group := by
  cases group with
  | nil =>
      rw [unlines_nil, List.nil_append] at whole
      exact (partFree (by rw [← whole]; simp)).elim
  | cons first rest =>
      rw [unlines_cons, List.append_assoc, List.cons_append] at whole
      rcases append_mark_inj (· ≠ '\n')
          (fun character member newline => lineFree (newline ▸ member))
          (fun character member newline =>
            groupFree first List.mem_cons_self (newline ▸ member))
          (by simp) (by simp) whole with ⟨rfl, -, -⟩
      exact List.mem_cons_self

/-- A whole line that occurs below another in joined lines and a part of one more is one of them. -/
theorem mem_of_infix_unlines
    {line part : Text}
    {group : List Text}
    (lineFree : '\n' ∉ line)
    (groupFree : ∀ line ∈ group, '\n' ∉ line)
    (partFree : '\n' ∉ part)
    (occurs : '\n' :: (line ++ ['\n']) <:+: unlines group ++ part) :
    line ∈ group := by
  rcases occurs with ⟨start, ending, whole⟩
  simp only [List.append_assoc, List.cons_append, List.nil_append] at whole
  induction group generalizing start with
  | nil =>
      rw [unlines_nil, List.nil_append] at whole
      exact (partFree (by rw [← whole]; simp)).elim
  | cons first rest induction =>
      have restFree (other : Text) (member : other ∈ rest) : '\n' ∉ other :=
        groupFree other (List.mem_cons_of_mem _ member)
      have next (below : line ++ '\n' :: ending = unlines rest ++ part) : line ∈ first :: rest :=
        List.mem_cons_of_mem _ (mem_of_eq_unlines_append lineFree restFree partFree below)
      rw [unlines_cons, List.append_assoc, List.cons_append] at whole
      -- the line feed before the line ends the first of the lines or a later one
      rcases List.append_eq_append_iff.mp whole with ⟨more, isFirst, below⟩ | ⟨more, -, below⟩
      · cases more with
        | nil => exact next (List.cons.inj below).2
        | cons newline more =>
            rcases List.cons.inj below with ⟨rfl, -⟩
            exact (groupFree first List.mem_cons_self (by rw [isFirst]; simp)).elim
      · cases more with
        | nil => exact next (List.cons.inj below).2.symm
        | cons newline more =>
            exact List.mem_cons_of_mem _
              (induction restFree more (List.cons.inj below).2.symm)

end TaggedUnion.Text
