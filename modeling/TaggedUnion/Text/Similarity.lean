import TaggedUnion.Text.Basic

/-!
# Similar texts

Two texts are similar when the blocks they share cover at least six tenths of
both together.  The shared blocks are found by taking the longest common one,
the leftmost of several, and going on to the left and to the right of it.
-/

namespace TaggedUnion.Text

/-- The length of the longest common beginning. -/
def sharedStart : Text → Text → Nat
  | first :: left, second :: right => if first = second then sharedStart left right + 1 else 0
  | _, _ => 0

/-- A block that two texts share: where it starts in each of them, and its length. -/
structure SharedBlock where
  inFirst : Nat
  inSecond : Nat
  length : Nat

/-- The longest block that two texts share, the leftmost in the first of them. -/
def longestShared (first second : Text) : SharedBlock :=
  (List.range first.length).foldl
    (fun best start =>
      (List.range second.length).foldl
        (fun best other =>
          let length := sharedStart (first.drop start) (second.drop other)
          if best.length < length then ⟨start, other, length⟩ else best)
        best)
    ⟨0, 0, 0⟩

/-- How many characters the shared blocks of two texts cover; the fuel bounds their number. -/
def sharedCount : (fuel : Nat) → Text → Text → Nat
  | 0, _, _ => 0
  | fuel + 1, first, second =>
      let block := longestShared first second
      if block.length = 0 then
        0
      else
        block.length +
          sharedCount fuel (first.take block.inFirst) (second.take block.inSecond) +
          sharedCount fuel (first.drop (block.inFirst + block.length))
            (second.drop (block.inSecond + block.length))

/-- Whether two texts are similar. -/
def isSimilar (first second : Text) : Bool :=
  3 * (first.length + second.length) ≤ 10 * sharedCount first.length first second

end TaggedUnion.Text
