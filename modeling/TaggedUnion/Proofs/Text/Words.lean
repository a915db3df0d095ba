import TaggedUnion.Text.Blank
import TaggedUnion.Text.Lines
import TaggedUnion.Proofs.Basic

/-!
# Words and trimmed text

A word is a text that is not empty and holds no blank.  Everything that
`Text.words` returns is a word, and a text that does not begin with a blank
begins with its first word.  Trimming only removes characters, and what is
left neither begins nor ends with a blank.  A text that does not end in a blank
ends with its last word.

The last section reads a list up to its first mark: where two lists agree,
what stands before their first marks agrees too.
-/

namespace TaggedUnion.Text

/-! ## Words -/

/-- A text that can stand between blanks. -/
structure IsWord (text : Text) : Prop where
  nonempty : text ≠ []
  blankFree : ∀ character ∈ text, isBlank character = false

instance (text : Text) : Decidable text.IsWord :=
  decidable_of_iff (text ≠ [] ∧ text.any isBlank = false)
    ⟨fun ⟨nonempty, free⟩ => ⟨nonempty, by simpa using free⟩,
      fun isWord => ⟨isWord.nonempty, by simpa using isWord.blankFree⟩⟩

theorem isWord_singleton
    {character : Char}
    (visible : isBlank character = false) :
    IsWord [character] := by
  refine ⟨by simp, ?_⟩
  intro other member
  rw [List.mem_singleton.mp member]
  exact visible

theorem IsWord.cons
    {character : Char}
    {word : Text}
    (visible : isBlank character = false)
    (isWord : IsWord word) :
    IsWord (character :: word) := by
  refine ⟨by simp, ?_⟩
  intro other member
  rcases List.mem_cons.mp member with rfl | later
  · exact visible
  · exact isWord.blankFree other later

/-- The text after the first character of a longer word is a word. -/
theorem IsWord.tail
    {character : Char}
    {word : Text}
    (isWord : IsWord (character :: word))
    (nonempty : word ≠ []) :
    IsWord word :=
  ⟨nonempty, fun other member => isWord.blankFree other (List.mem_cons_of_mem _ member)⟩

/-- The words of a text are words. -/
theorem isWord_of_mem_words
    {text word : Text}
    (member : word ∈ words text) :
    IsWord word := by
  induction text generalizing word with
  | nil => simp [words] at member
  | cons character rest induction =>
      unfold words at member
      split at member
      · exact induction member
      · rename_i visible
        have visible : isBlank character = false := by simpa using visible
        split at member
        · rename_i first more _ restWords
          rcases List.mem_cons.mp member with rfl | later
          · exact (induction (by simp [restWords])).cons visible
          · exact induction (by simp [restWords, later])
        · rcases List.mem_cons.mp member with rfl | later
          · exact isWord_singleton visible
          · exact induction later

/-- A text that begins inside a word begins with its first word. -/
theorem words_cons_of_visible
    {character : Char}
    (visible : isBlank character = false)
    (rest : Text) :
    ∃ word more, words (character :: rest) = (character :: word) :: more := by
  rw [words, if_neg (by simp [visible])]
  split
  · exact ⟨_, _, rfl⟩
  · exact ⟨[], _, rfl⟩

/-- The first word of a text that begins inside a word has its first character. -/
theorem head?_eq_of_words
    {text word : Text}
    {more : List Text}
    (starts : startsWord text = true)
    (equal : words text = word :: more) :
    text.head? = word.head? := by
  cases text with
  | nil => simp [startsWord] at starts
  | cons character rest =>
      have visible : isBlank character = false := by
        simpa [startsWord] using starts
      obtain ⟨first, others, wordsEqual⟩ := words_cons_of_visible visible rest
      rw [wordsEqual] at equal
      obtain ⟨rfl, -⟩ := List.cons.inj equal
      rfl

/-- A word is the only word of its text. -/
theorem words_of_isWord {word : Text} (isWord : IsWord word) : words word = [word] := by
  induction word with
  | nil => exact (isWord.nonempty rfl).elim
  | cons character rest induction =>
      have visible := isWord.blankFree character List.mem_cons_self
      cases rest with
      | nil => simp [words, visible, startsWord]
      | cons next more =>
          have restIsWord := isWord.tail (List.cons_ne_nil next more)
          have nextVisible := restIsWord.blankFree next List.mem_cons_self
          rw [words, induction restIsWord]
          simp [visible, startsWord, nextVisible]

theorem startsWord_append_blank
    {blank : Char}
    (isBlank : isBlank blank = true)
    (before after : Text) :
    startsWord (before ++ blank :: after) = startsWord before := by
  cases before with
  | nil => simp [startsWord, isBlank]
  | cons character rest => rfl

/-- A blank separates the words before it from those after it. -/
theorem words_append_blank
    {blank : Char}
    (isBlank : isBlank blank = true)
    (before after : Text) :
    words (before ++ blank :: after) = words before ++ words after := by
  induction before with
  | nil => simp [words, isBlank]
  | cons character rest induction =>
      rw [List.cons_append, words, words, induction, startsWord_append_blank isBlank]
      split
      · rfl
      · cases rest with
        | nil => rfl
        | cons next more =>
            cases visible : Text.isBlank next with
            | true => simp [startsWord, visible]
            | false =>
                obtain ⟨word, others, equal⟩ := words_cons_of_visible visible more
                simp [startsWord, visible, equal]

theorem getLast?_words_of_isWord
    {word : Text}
    (isWord : IsWord word) :
    (words word).getLast? = some word := by
  rw [words_of_isWord isWord]
  rfl

theorem getLast?_words_append_blank
    {blank : Char}
    (isBlank : isBlank blank = true)
    (before : Text)
    {word : Text}
    (isWord : IsWord word) :
    (words (before ++ blank :: word)).getLast? = some word := by
  rw [words_append_blank isBlank, words_of_isWord isWord, List.getLast?_concat]

/-- Every character that ends a line also separates words. -/
theorem isBlank_of_isLineBreak
    {character : Char}
    (breaks : isLineBreak character = true) :
    isBlank character = true := by
  simp only [isLineBreak, isBlank, Bool.or_eq_true, Bool.and_eq_true,
    decide_eq_true_eq, beq_iff_eq] at breaks ⊢
  omega

/-! ## Trimming -/

theorem trimStart_suffix (text : Text) : trimStart text <:+ text :=
  List.dropWhile_suffix _

theorem trimEnd_isPrefix (text : Text) : trimEnd text <+: text := by
  have suffix := List.dropWhile_suffix (l := text.reverse) isBlank
  simpa [trimEnd] using List.reverse_prefix.mpr suffix

/-- Trimming keeps only characters of the text. -/
theorem mem_of_mem_trim
    {text : Text}
    {character : Char}
    (member : character ∈ trim text) :
    character ∈ text :=
  (trimStart_suffix text).subset ((trimEnd_isPrefix _).subset member)

/-- What trimming leaves begins inside a word. -/
theorem startsWord_trim
    {text : Text}
    (nonempty : trim text ≠ []) :
    startsWord (trim text) = true := by
  obtain ⟨character, rest, equal⟩ := List.exists_cons_of_ne_nil nonempty
  have starts : (trimStart text).head? = some character := by
    obtain ⟨tail, whole⟩ := trimEnd_isPrefix (trimStart text)
    rw [trim] at equal
    rw [← whole, equal]
    rfl
  have visible : isBlank character = false := by
    have stops := List.head?_dropWhile_not isBlank text
    rw [trimStart] at starts
    simpa [starts] using stops
  rw [equal]
  simp [startsWord, visible]

/-- The text does not end in a blank. -/
def EndsVisibly (text : Text) : Prop :=
  ∀ character ∈ text.getLast?, isBlank character = false

instance (text : Text) : Decidable (EndsVisibly text) :=
  decidable_of_iff (text.getLast?.all fun character => !isBlank character)
    (by simp [EndsVisibly, Option.all_eq_true])

theorem IsWord.endsVisibly {word : Text} (isWord : IsWord word) : EndsVisibly word :=
  fun character final => isWord.blankFree character (List.mem_of_getLast? final)

theorem EndsVisibly.cons
    {character : Char}
    {text : Text}
    (visible : isBlank character = false)
    (ends : EndsVisibly text) :
    EndsVisibly (character :: text) := by
  intro last final
  cases text with
  | nil => exact Option.some.inj final ▸ visible
  | cons next more => exact ends last (by rwa [List.getLast?_cons_cons] at final)

theorem EndsVisibly.append
    {text : Text}
    (ends : EndsVisibly text)
    (nonempty : text ≠ [])
    (before : Text) :
    EndsVisibly (before ++ text) := by
  intro character final
  rw [List.getLast?_append, List.getLast?_eq_some_getLast nonempty, Option.some_or] at final
  apply ends
  rwa [List.getLast?_eq_some_getLast nonempty]

/-- What trimming leaves does not end in a blank. -/
theorem endsVisibly_trim (text : Text) : EndsVisibly (trim text) := by
  intro character final
  have stops := List.head?_dropWhile_not isBlank (trimStart text).reverse
  rw [trim, trimEnd, List.getLast?_reverse, Option.mem_def] at final
  simpa [final] using stops

/-- A text without blanks at its ends is left as it is. -/
theorem trim_eq_self
    {text : Text}
    (starts : startsWord text = true)
    (ends : EndsVisibly text) :
    trim text = text := by
  have startKept : trimStart text = text := by
    cases text with
    | nil => rfl
    | cons character rest =>
        have visible : isBlank character = false := by simpa [startsWord] using starts
        simp [trimStart, visible]
  rw [trim, startKept, trimEnd, List.reverse_eq_iff]
  cases reversed : text.reverse with
  | nil => rfl
  | cons character rest =>
      have visible : isBlank character = false := by
        apply ends
        rw [List.getLast?_eq_head?_reverse, reversed]
        rfl
      simp [visible]

/-- A text that does not end in a blank ends in a word, at its start or after a blank. -/
theorem exists_lastWord
    {text : Text}
    (ends : EndsVisibly text)
    (nonempty : text ≠ []) :
    ∃ word,
      IsWord word ∧
        (text = word ∨
          ∃ before blank, isBlank blank = true ∧ text = before ++ blank :: word) := by
  induction text with
  | nil => exact (nonempty rfl).elim
  | cons character rest induction =>
      by_cases single : rest = []
      · subst single
        exact ⟨[character], isWord_singleton (ends character rfl), Or.inl rfl⟩
      · have restEnds : EndsVisibly rest := by
          intro final isFinal
          apply ends
          rwa [List.getLast?_cons_of_ne_nil single]
        obtain ⟨word, isWord, rfl | ⟨before, blank, isBlank, rfl⟩⟩ :=
          induction restEnds single
        · cases visible : isBlank character with
          | true => exact ⟨rest, isWord, Or.inr ⟨[], character, visible, rfl⟩⟩
          | false => exact ⟨character :: rest, isWord.cons visible, Or.inl rfl⟩
        · exact ⟨word, isWord, Or.inr ⟨character :: before, blank, isBlank, rfl⟩⟩

/-! ## Reading up to a mark -/

/-- A word is found again before the space that follows it. -/
theorem IsWord.append_space_inj
    {left right leftRest rightRest : Text}
    (leftWord : IsWord left)
    (rightWord : IsWord right)
    (equal : left ++ ' ' :: leftRest = right ++ ' ' :: rightRest) :
    left = right ∧ leftRest = rightRest := by
  rcases append_mark_inj (isBlank · = false) leftWord.blankFree rightWord.blankFree
      (by decide) (by decide) equal with ⟨sameWord, -, sameRest⟩
  exact ⟨sameWord, sameRest⟩

end TaggedUnion.Text
