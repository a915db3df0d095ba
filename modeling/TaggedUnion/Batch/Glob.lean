import TaggedUnion.Disk.Path

/-!
# Name patterns

A pattern for paths consists of segments between slashes.  `**` stands for any
number of directories, `..` for a step up, a segment without marks for the name
that it spells, and any other segment is a pattern for one name, in which `*`
stands for any text, `?` for any character, and brackets for one character of a
set.  A bracket that is never closed stands for itself, and there is no escape
character.

`GlobPiece.fits` says which names a pattern fits.  `GlobPiece.accepts` finds
that out in a number of steps bounded by the product of the sizes of pattern and
name, and `GlobPiece.accepts_eq_fits` says that both agree.
-/

namespace TaggedUnion

/--
A set of characters, given by chunks: each character of a chunk belongs to it,
and so does every character between the end of a chunk and the start of the
next one.
-/
structure CharSet where
  negated : Bool
  chunks : List Text
deriving DecidableEq, Repr

namespace CharSet

/-- Cut the text of a set at the hyphens that stand between two characters of a range. -/
def cut (chunk : Text) (atLeast : Nat) : Text → List Text
  | [] => [chunk]
  | character :: rest =>
      if character = '-' ∧ atLeast = 0 then
        chunk :: cut [] 2 rest
      else
        cut (chunk ++ [character]) (atLeast - 1) rest

/-- A hyphen at the end stands for itself. -/
def closeLast : List Text → List Text
  | [] => []
  | [chunk] => [chunk]
  | [chunk, []] => [chunk ++ ['-']]
  | chunk :: rest => chunk :: closeLast rest

/-- A range that runs backwards vanishes together with both of its ends. -/
def dropBackward : List Text → List Text
  | [] => []
  | chunk :: rest =>
      match dropBackward rest with
      | [] => [chunk]
      | next :: more =>
          match chunk.getLast?, next.head? with
          | some first, some last =>
              if last.toNat < first.toNat then (chunk.dropLast ++ next.tail) :: more
              else chunk :: next :: more
          | _, _ => chunk :: next :: more

/-- An exclamation mark at the start, once the ranges are known, negates the set. -/
def ofChunks : List Text → CharSet
  | ['!'] :: next :: more => ⟨true, ('-' :: next) :: more⟩
  | ('!' :: chunk) :: more => ⟨true, chunk :: more⟩
  | chunks => ⟨false, chunks⟩

/-- The set written between two brackets. -/
def ofBody (body : Text) : CharSet :=
  let atLeast := if body.head? = some '!' then 2 else 1
  ofChunks (dropBackward (closeLast (cut [] atLeast body)))

/-- Whether a character lies in one of the ranges between neighbouring chunks. -/
def inRange (character : Char) : List Text → Bool
  | chunk :: next :: more =>
      (match chunk.getLast?, next.head? with
        | some first, some last => first.toNat ≤ character.toNat && character.toNat ≤ last.toNat
        | _, _ => false) || inRange character (next :: more)
  | _ => false

/-- Whether a character belongs to the set. -/
def holds (set : CharSet) (character : Char) : Bool :=
  (set.chunks.any (·.contains character) || inRange character set.chunks) != set.negated

end CharSet

/-- A piece of a pattern for names. -/
inductive GlobPiece where
  | anyText
  | anyCharacter
  | literal (character : Char)
  | oneOf (set : CharSet)
deriving DecidableEq, Repr

namespace GlobPiece

/-- The text of a set up to its closing bracket, which is not the first character. -/
def body? (text : Text) : Option (Text × Text) :=
  let (mark, rest) : Text × Text :=
    match text with
    | '!' :: rest => (['!'], rest)
    | _ => ([], text)
  let (first, rest) : Text × Text :=
    match rest with
    | ']' :: rest => ([']'], rest)
    | _ => ([], rest)
  match rest.span (· ≠ ']') with
  | (inner, _ :: after) => some (mark ++ first ++ inner, after)
  | (_, []) => none

/-- The pieces of a pattern; `skip` counts the characters of a set that has been read. -/
def readFrom : (skip : Nat) → Text → List GlobPiece
  | _, [] => []
  | skip + 1, _ :: rest => readFrom skip rest
  | 0, '*' :: rest => .anyText :: readFrom 0 rest
  | 0, '?' :: rest => .anyCharacter :: readFrom 0 rest
  | 0, '[' :: rest =>
      match body? rest with
      | some (body, _) => .oneOf (CharSet.ofBody body) :: readFrom (body.length + 1) rest
      | none => .literal '[' :: readFrom 0 rest
  | 0, character :: rest => .literal character :: readFrom 0 rest

/-- Whether a piece stands for the given character alone. -/
def takes : GlobPiece → Char → Bool
  | anyText, _ => false
  | anyCharacter, _ => true
  | literal expected, character => expected = character
  | oneOf set, character => set.holds character

/-- Whether some end of a text, the whole text included, passes a test. -/
def anyEnd (test : Text → Bool) : Text → Bool
  | [] => test []
  | character :: rest => test (character :: rest) || anyEnd test rest

/-- Whether pieces fit a whole name. -/
def fits : List GlobPiece → Text → Bool
  | [], name => name.isEmpty
  | .anyText :: rest, name => anyEnd (fits rest) name
  | _ :: _, [] => false
  | piece :: rest, character :: name => piece.takes character && fits rest name

/-! ## Fitting all ends of a name at once -/

/-- For each answer, whether it or a later one is positive. -/
def hereOrLater : List Bool → List Bool
  | [] => []
  | here :: later =>
      let answers := hereOrLater later
      (here || answers.headD false) :: answers

/--
From the answers for the ends of a name, the answers for a pattern that has one
more piece in front.
-/
def afterOne (piece : GlobPiece) : Text → List Bool → List Bool
  | character :: name, _ :: later =>
      (piece.takes character && later.headD false) :: afterOne piece name later
  | _, _ => [false]

/-- For each end of a name, the whole name first, whether pieces fit it. -/
def fitsEnds : List GlobPiece → Text → List Bool
  | [], name => name.map (fun _ => false) ++ [true]
  | .anyText :: rest, name => hereOrLater (fitsEnds rest name)
  | piece :: rest, name => afterOne piece name (fitsEnds rest name)

/-- Whether pieces fit a whole name, found from the answers for its ends. -/
def accepts (pieces : List GlobPiece) (name : Text) : Bool :=
  (fitsEnds pieces name).headD false

theorem fitsEnds_nil (pieces : List GlobPiece) :
    fitsEnds pieces [] = [fits pieces []] := by
  induction pieces with
  | nil => rfl
  | cons piece rest ih =>
      cases piece with
      | anyText => simp [fitsEnds, ih, hereOrLater, fits, anyEnd]
      | anyCharacter => simp [fitsEnds, afterOne, fits]
      | literal expected => simp [fitsEnds, afterOne, fits]
      | oneOf set => simp [fitsEnds, afterOne, fits]

theorem fitsEnds_cons (pieces : List GlobPiece) (character : Char) (name : Text) :
    fitsEnds pieces (character :: name) =
      fits pieces (character :: name) :: fitsEnds pieces name := by
  induction pieces generalizing character name with
  | nil => simp [fitsEnds, fits]
  | cons piece rest ih =>
      have head (text : Text) : (fitsEnds rest text).head?.getD false = fits rest text := by
        cases text with
        | nil => simp [fitsEnds_nil]
        | cons first others => simp [ih]
      have later (text : Text) :
          (hereOrLater (fitsEnds rest text)).headD false = anyEnd (fits rest) text := by
        induction text with
        | nil => simp [fitsEnds_nil, hereOrLater, anyEnd]
        | cons first others inner =>
            rw [ih, hereOrLater, List.headD_cons, inner, anyEnd]
      cases piece with
      | anyText =>
          simp only [fitsEnds, ih, hereOrLater, later, fits, anyEnd]
      | anyCharacter => simp [fitsEnds, ih, afterOne, head, fits]
      | literal expected => simp [fitsEnds, ih, afterOne, head, fits]
      | oneOf set => simp [fitsEnds, ih, afterOne, head, fits]

theorem accepts_eq_fits (pieces : List GlobPiece) (name : Text) :
    accepts pieces name = fits pieces name := by
  cases name with
  | nil => simp [accepts, fitsEnds_nil]
  | cons character rest => simp [accepts, fitsEnds_cons]

end GlobPiece

/-- A segment of a pattern for paths. -/
inductive Segment where
  /-- Any number of directories. -/
  | anyDepth
  /-- The directory above. -/
  | up
  /-- The node with a name. -/
  | name (text : Text)
  /-- Every node whose name fits. -/
  | pattern (pieces : List GlobPiece)
  /-- The directory itself. -/
  | here
deriving DecidableEq, Repr

/-- A pattern for paths below a directory; all segments but the last lead to directories. -/
abbrev Glob := List Segment

/-- Why a text is no pattern. -/
inductive GlobError where
  /-- Two stars stand next to other characters. -/
  | starsInName
deriving DecidableEq, Repr

namespace GlobError

/-- The error in words. -/
def message : GlobError → Text
  | starsInName => "Invalid pattern: '**' can only be an entire path component"

end GlobError

namespace Glob

/-- Whether two stars stand side by side. -/
def hasDoubleStar : Text → Bool
  | '*' :: '*' :: _ => true
  | _ :: rest => hasDoubleStar rest
  | [] => false

/-- Whether a character makes the segment in which it stands a pattern. -/
def isMark (character : Char) : Bool :=
  character = '*' || character = '?' || character = '['

/-- The segment that a text between slashes stands for. -/
def segmentOf (text : Text) : Except GlobError Segment :=
  if text = ['*', '*'] then .ok .anyDepth
  else if text = ['.', '.'] then .ok .up
  else if hasDoubleStar text then .error .starsInName
  else if text.any isMark then .ok (.pattern (GlobPiece.readFrom 0 text))
  else .ok (.name text)

/-- A pattern that ends with a slash leads to directories only. -/
def closing (text : Text) : List Segment :=
  if text.getLast? = some '/' then [.here] else []

/-- Put a segment before others; any depth below any depth leads no further than once. -/
def before (segment : Segment) (others : List Segment) : List Segment :=
  if segment = .anyDepth ∧ others.head? = some .anyDepth then others else segment :: others

/-- The pattern that a text stands for, at any depth below a directory. -/
def anywhere (text : Text) : Except GlobError Glob := do
  let segments ← (Path.namesOf text).mapM segmentOf
  .ok ((.anyDepth :: segments ++ closing text).foldr before [])

end Glob

end TaggedUnion
