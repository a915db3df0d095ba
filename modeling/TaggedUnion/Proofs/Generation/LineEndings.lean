import TaggedUnion.Proofs.Artifact.Recovery
import TaggedUnion.Proofs.Artifact.Truncation
import TaggedUnion.Proofs.Batch.Replacement
import TaggedUnion.Proofs.Document.Vocabulary
import TaggedUnion.Proofs.Generation.Judgement
import TaggedUnion.Proofs.Text.Utf8

/-!
# Line endings of artifacts

An artifact is cut into lines in more than one way.  The count of braces cuts it
at every line break, the search for declared variants at line feeds only, and a
reader of the file takes carriage returns for line feeds.  The line feed is the
only break that an artifact of a text has, so all of them see the same lines.
-/

namespace TaggedUnion

/-! ## Texts that break at line feeds only -/

namespace Text

/-- The lines of a text when nothing but a line feed ends a line. -/
def feedLines : Text → List Text
  | [] => []
  | character :: rest =>
      if character = '\n' then [] :: feedLines rest else consLine character (feedLines rest)

/-- The line feed is the only line break in the text. -/
def BreaksAtFeeds (text : Text) : Prop :=
  ∀ character ∈ text, isLineBreak character = true → character = '\n'

theorem BreaksAtFeeds.return_notMem {text : Text} (feeds : BreaksAtFeeds text) : '\r' ∉ text :=
  fun member => absurd (feeds '\r' member (by decide)) (by decide)

theorem breaksAtFeeds_unlines
    {group : List Text}
    (free : ∀ line ∈ group, BreakFree line) :
    BreaksAtFeeds (unlines group) := by
  intro character member breaks
  obtain ⟨line, lineMember, inLine⟩ := List.mem_flatMap.mp member
  rcases List.mem_append.mp inLine with inside | ending
  · rw [free line lineMember character inside] at breaks
    cases breaks
  · exact List.mem_singleton.mp ending

theorem BreaksAtFeeds.lines_eq
    {text : Text}
    (feeds : BreaksAtFeeds text) :
    lines text = feedLines text := by
  induction text with
  | nil => rfl
  | cons character rest induction =>
      have notReturn : character ≠ '\r' := by
        rintro rfl
        exact feeds.return_notMem List.mem_cons_self
      obtain ⟨atFeed, below⟩ := List.forall_mem_cons.mp feeds
      have breaks_iff : isLineBreak character = true ↔ character = '\n' :=
        ⟨atFeed, fun same => same ▸ by decide⟩
      simp only [lines_cons_of_ne_return notReturn, feedLines, induction below, breaks_iff]

theorem unifyNewlines_of_return_notMem
    {text : Text}
    (free : '\r' ∉ text) :
    unifyNewlines text = text := by
  fun_induction unifyNewlines text with
  | case1 => rfl
  | case2 rest induction => exact (free List.mem_cons_self).elim
  | case3 rest alone induction => exact (free List.mem_cons_self).elim
  | case4 character rest _ _ induction =>
      rw [induction fun member => free (List.mem_cons_of_mem _ member)]

theorem newline_notMem_of_mem_feedLines
    {text line : Text}
    (member : line ∈ feedLines text) :
    '\n' ∉ line := by
  induction text generalizing line with
  | nil => cases member
  | cons character rest induction =>
      rw [feedLines] at member
      split at member
      · rcases List.mem_cons.mp member with rfl | later
        · exact List.not_mem_nil
        · exact induction later
      · rename_i notFeed
        cases cut : feedLines rest with
        | nil =>
            rw [cut, consLine, List.mem_singleton] at member
            simpa [member] using Ne.symm notFeed
        | cons first more =>
            rw [cut] at induction member
            rcases List.mem_cons.mp member with rfl | later
            · simpa [Ne.symm notFeed] using induction List.mem_cons_self
            · exact induction (List.mem_cons_of_mem _ later)

/-- The lines at line feeds make the text again, but for a line feed that may be missing. -/
theorem unlines_feedLines (text : Text) :
    unlines (feedLines text) = text ∨ unlines (feedLines text) = text ++ ['\n'] := by
  induction text with
  | nil => exact Or.inl rfl
  | cons character rest induction =>
      rw [feedLines]
      split
      · rename_i isFeed
        simpa [isFeed] using induction
      · cases cut : feedLines rest with
        | nil =>
            -- nothing follows, so the character stands on a line that is not ended
            rw [cut] at induction
            rcases induction with ends | extended
            · simp [consLine, ← ends]
            · simp at extended
        | cons first more =>
            rw [cut] at induction
            simpa [consLine] using induction

end Text

/-! ## What the parts of the check see -/

namespace Artifact

/-- The search for declarations reads the lines at line feeds, whatever else is in a text. -/
theorem declaredVariants_eq_feedLines
    {unionName : Text}
    (unionFree : Text.BreakFree unionName)
    (text : Text) :
    declaredVariants unionName text =
      (Text.feedLines text).filterMap (declaredBy? unionName) := by
  have free : ∀ line ∈ Text.feedLines text, '\n' ∉ line :=
    fun line member => Text.newline_notMem_of_mem_feedLines member
  have read := declaredVariants_unlines unionFree free
  -- the search does not mind whether the last line is ended
  rcases Text.unlines_feedLines text with whole | extended
  · rwa [whole] at read
  · rwa [extended, declaredVariants_concat_newline unionFree] at read

/--
Both ways of cutting a text give the same lines: the declarations are those of the
lines between which the braces are counted, and the braces are counted between
the lines in which declarations are sought.
-/
structure CutsAlike (text : Text) : Prop where
  lines : Text.lines text = Text.feedLines text
  declared : ∀ unionName, Text.BreakFree unionName →
    declaredVariants unionName text = (Text.lines text).filterMap (declaredBy? unionName)
  balanced : isBalanced text = balancedFrom 0 ((Text.feedLines text).filter isCodeLine)

theorem cutsAlike_of_breaksAtFeeds
    {text : Text}
    (feeds : Text.BreaksAtFeeds text) :
    CutsAlike text where
  lines := feeds.lines_eq
  declared unionName unionFree := by
    rw [declaredVariants_eq_feedLines unionFree, feeds.lines_eq]
  balanced := by
    rw [isBalanced, feeds.lines_eq]

theorem breaksAtFeeds_render
    {schema : Schema}
    (worded : schema.IsWorded)
    (fixedFree : ∀ line ∈ schema.fixedLines, Text.BreakFree line)
    {remark : Option Text}
    (isRemark : ∀ text ∈ remark, IsRemark text) :
    Text.BreaksAtFeeds (render remark schema) := by
  rw [render, lines_eq]
  apply Text.breaksAtFeeds_unlines
  intro line member
  rcases List.mem_append.mp member with inRemark | inCode
  · exact (isRemark line (Option.mem_toList.mp inRemark)).breakFree
  · exact breakFree_lines worded fixedFree line inCode

theorem closing_suffix_render (remark : Option Text) (schema : Schema) :
    ['}', '\n'] <:+ render remark schema := by
  obtain ⟨inner, ends⟩ := exists_backLines_eq_concat schema
  refine ⟨Text.unlines
    (remark.toList ++ (frontLines schema ++ (fixedLines schema ++ inner))), ?_⟩
  simp [render, lines_eq, ends]

end Artifact

/-! ## Artifacts of texts -/

namespace Generator

open Artifact (fixedRegion CutsAlike)

/-- A document with line breaks of many kinds, one of them after a carriage return. -/
def brokenText : Text :=
  "A \x7b\r&int  N() => 0;\u2028&//\t\x7d.\x0bV \x7b\r\nfloat side\u0085\x7d\x1c\u2029\x7d\x0c"

/-- The schema of that document. -/
def brokenSchema : Schema where
  name := "A"
  fixedLines := ["int  N() => 0;", "//\t\x7d."]
  variants := [⟨"V", [⟨"float", "side"⟩]⟩]

/-- A generator whose artifacts begin with a remark on their origin. -/
def remarking : Generator :=
  make { addGenerationComment := .bool true } none

end Generator

end TaggedUnion
