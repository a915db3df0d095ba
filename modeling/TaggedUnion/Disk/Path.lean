import TaggedUnion.Text.Basic

/-!
# Paths

A path leads from the working directory, or from the root when it starts with
a slash, through names to a place.  Its text has single slashes and neither
empty names nor names for the directory itself; the name `..` stays, since only
a walk can tell where it leads.  Two slashes at the start, and no more than
two, are kept as they are written, and lead to the root as well.
-/

namespace TaggedUnion

/-- Where a path starts. -/
inductive Anchor where
  | workingDirectory
  | root
  /-- The root, written with two slashes. -/
  | doubledRoot
deriving DecidableEq, Repr

/-- A start and the names to follow from there. -/
structure Path where
  anchor : Anchor := .workingDirectory
  names : List Text := []
deriving DecidableEq, Repr

namespace Path

/-- The pieces between slashes. -/
def pieces : Text → List Text
  | [] => [[]]
  | character :: rest =>
      if character = '/' then
        [] :: pieces rest
      else
        match pieces rest with
        | [] => [[character]]
        | piece :: more => (character :: piece) :: more

/-- The names between slashes, without those that lead nowhere. -/
def namesOf (text : Text) : List Text :=
  (pieces text).filter fun piece => piece ≠ [] ∧ piece ≠ ['.']

/-- The start of a path, told by its leading slashes. -/
def anchorOf : Text → Anchor
  | '/' :: '/' :: '/' :: _ => .root
  | '/' :: '/' :: _ => .doubledRoot
  | '/' :: _ => .root
  | _ => .workingDirectory

/-- The path that a text denotes. -/
def ofText (text : Text) : Path :=
  ⟨anchorOf text, namesOf text⟩

/-- The path from the root through the given names. -/
def absolute (names : List Text) : Path :=
  ⟨.root, names⟩

/-- The text of a path; the working directory is a single dot. -/
def toText (path : Path) : Text :=
  let names := Text.joinWith "/" path.names
  match path.anchor with
  | .workingDirectory => if path.names.isEmpty then "." else names
  | .root => .cat ["/", names]
  | .doubledRoot => .cat ["//", names]

/-- The path without its last name. -/
def parent (path : Path) : Path :=
  { path with names := path.names.dropLast }

/-- The last name of a path, empty when there is none. -/
def name (path : Path) : Text :=
  path.names.getLast?.getD []

/-- The place that a text denotes when it is read from the end of a path. -/
def join (path : Path) (text : Text) : Path :=
  match anchorOf text with
  | .workingDirectory => { path with names := path.names ++ namesOf text }
  | anchor => ⟨anchor, namesOf text⟩

/-- The path one name further. -/
def child (path : Path) (name : Text) : Path :=
  { path with names := path.names ++ [name] }

end Path

end TaggedUnion
