import TaggedUnion.Disk.Access
import Mathlib.Data.List.Nodup

/-!
# Changes to a tree

A tree stays one when a node is put into one of its directories, as long as no
directory gives way to a file, and when a file is taken away.

Making directories only adds to a tree: all that stood on the disk still stands
there.  `Adds` keeps track of the places at which directories may have been made.
-/

namespace TaggedUnion.Disk

theorem mem_keys_insertNode
    {entry : Location × Node}
    {location : Location}
    {node : Node}
    {nodes : List (Location × Node)}
    (member : entry ∈ insertNode location node nodes) :
    entry.1 = location ∨ entry ∈ nodes := by
  induction nodes with
  | nil => simp_all [insertNode]
  | cons first rest ih =>
      obtain ⟨place, old⟩ := first
      by_cases replaced : place = location
      · rw [insertNode, if_pos replaced] at member
        rcases List.mem_cons.mp member with rfl | inRest
        · exact Or.inl replaced
        · exact Or.inr (List.mem_cons_of_mem _ inRest)
      · rw [insertNode, if_neg replaced] at member
        rcases List.mem_cons.mp member with rfl | inRest
        · exact Or.inr List.mem_cons_self
        · exact (ih inRest).imp_right (List.mem_cons_of_mem _)

theorem nodup_keys_insertNode
    {location : Location}
    {node : Node}
    {nodes : List (Location × Node)}
    (distinct : (nodes.map (·.1)).Nodup) :
    ((insertNode location node nodes).map (·.1)).Nodup := by
  induction nodes with
  | nil => simp [insertNode]
  | cons first rest ih =>
      obtain ⟨place, old⟩ := first
      rw [List.map_cons, List.nodup_cons] at distinct
      by_cases replaced : place = location
      · rw [insertNode, if_pos replaced, List.map_cons, List.nodup_cons]
        exact distinct
      · rw [insertNode, if_neg replaced, List.map_cons, List.nodup_cons]
        refine ⟨fun member => ?_, ih distinct.2⟩
        obtain ⟨entry, inserted, same⟩ := List.mem_map.mp member
        rcases mem_keys_insertNode inserted with key | inRest
        · exact replaced (same.symm.trans key)
        · exact distinct.1 (List.mem_map.mpr ⟨entry, inRest, same⟩)

namespace IsTree

variable {disk : Disk}

theorem node?_of_mem
    (tree : disk.IsTree)
    {location : Location}
    {node : Node}
    (member : (location, node) ∈ disk.nodes) :
    disk.node? location = some node := by
  have listed {nodes : List (Location × Node)}
      (distinct : (nodes.map (·.1)).Nodup)
      (inNodes : (location, node) ∈ nodes) :
      lookup location nodes = some node := by
    induction nodes with
    | nil => cases inNodes
    | cons first rest ih =>
        rw [List.map_cons, List.nodup_cons] at distinct
        rcases List.mem_cons.mp inNodes with rfl | inRest
        · simp [lookup]
        · have other : first.1 ≠ location := fun same =>
            distinct.1 (List.mem_map.mpr ⟨_, inRest, same.symm⟩)
          simpa [lookup, other] using ih distinct.2 inRest
  rw [node?, if_neg (tree.rootUnlisted _ member)]
  exact listed tree.distinct member

theorem mem_nodes_iff
    (tree : disk.IsTree)
    {location : Location}
    (notRoot : location ≠ [])
    (node : Node) :
    (location, node) ∈ disk.nodes ↔ disk.node? location = some node := by
  constructor
  · exact tree.node?_of_mem
  · intro found
    rw [node?, if_neg notRoot] at found
    exact mem_of_lookup found

theorem start_isDirectory
    (tree : disk.IsTree)
    (anchor : Anchor) :
    disk.node? (disk.start anchor) = some .directory := by
  cases anchor with
  | workingDirectory => exact tree.workingDirectory
  | root | doubledRoot => rfl

/-- A node can be put into a directory, but no file in place of a directory. -/
theorem put
    (tree : disk.IsTree)
    {location : Location}
    {name : Text}
    {node : Node}
    (inside : disk.node? location = some .directory)
    (kept : node = .directory ∨ disk.node? (location ++ [name]) ≠ some .directory) :
    (disk.put (location ++ [name]) node).IsTree := by
  have notRoot : location ++ [name] ≠ [] := by simp
  have keeps {place : Location} (wasDirectory : disk.node? place = some .directory) :
      (disk.put (location ++ [name]) node).node? place = some .directory := by
    rw [node?_put _ _ _ _ notRoot]
    split
    · rename_i same
      rcases kept with rfl | other
      · rfl
      · exact (other (same ▸ wasDirectory)).elim
    · exact wasDirectory
  constructor
  · exact nodup_keys_insertNode tree.distinct
  · intro entry member
    rcases mem_keys_insertNode member with key | old
    · exact key ▸ notRoot
    · exact tree.rootUnlisted entry old
  · intro entry member
    rcases mem_keys_insertNode member with key | old
    · exact keeps (by rw [key, List.dropLast_concat]; exact inside)
    · exact keeps (tree.parents entry old)
  · exact keeps tree.workingDirectory

/-- A file can be taken away. -/
theorem erase
    (tree : disk.IsTree)
    {location : Location}
    {content : Bytes}
    (file : disk.node? location = some (.file content)) :
    (disk.erase location).IsTree := by
  have notRoot : location ≠ [] := by
    rintro rfl
    cases file
  have keeps {place : Location} (wasDirectory : disk.node? place = some .directory) :
      (disk.erase location).node? place = some .directory := by
    rw [node?_erase _ _ _ notRoot, if_neg]
    · exact wasDirectory
    · rintro rfl
      rw [file] at wasDirectory
      cases wasDirectory
  constructor
  · exact tree.distinct.sublist (List.filter_sublist.map _)
  · intro entry member
    exact tree.rootUnlisted entry (List.mem_of_mem_filter member)
  · intro entry member
    exact keeps (tree.parents entry (List.mem_of_mem_filter member))
  · exact keeps tree.workingDirectory

end IsTree

/-! ## Directories that are added -/

/--
The later disk differs from the earlier one at most by directories at some of
the given places, where nothing stood before.
-/
structure Adds (earlier later : Disk) (places : List Location) : Prop where
  workingDirectory : later.workingDirectory = earlier.workingDirectory
  node? : ∀ location,
    later.node? location = earlier.node? location ∨
      location ∈ places ∧
        earlier.node? location = none ∧ later.node? location = some .directory

namespace Adds

variable {earlier middle later : Disk} {places more : List Location}

theorem refl (disk : Disk) (places : List Location) : disk.Adds disk places :=
  ⟨rfl, fun _ => Or.inl rfl⟩

theorem mono
    (adds : earlier.Adds later places)
    (included : places ⊆ more) :
    earlier.Adds later more :=
  ⟨adds.workingDirectory, fun location =>
    (adds.node? location).imp_right fun ⟨member, rest⟩ => ⟨included member, rest⟩⟩

theorem trans
    (first : earlier.Adds middle places)
    (second : middle.Adds later places) :
    earlier.Adds later places := by
  refine ⟨second.workingDirectory.trans first.workingDirectory, fun location => ?_⟩
  rcases second.node? location with same | ⟨member, absent, made⟩
  · rw [same]
    exact first.node? location
  · rcases first.node? location with same | ⟨-, -, already⟩
    · exact Or.inr ⟨member, same ▸ absent, made⟩
    · rw [already] at absent
      cases absent

theorem node?_of_some
    (adds : earlier.Adds later places)
    {location : Location}
    {node : Node}
    (found : earlier.node? location = some node) :
    later.node? location = some node := by
  rcases adds.node? location with same | ⟨-, absent, -⟩
  · exact same.trans found
  · rw [found] at absent
    cases absent

theorem put_directory
    (disk : Disk)
    {location : Location}
    (notRoot : location ≠ [])
    (absent : disk.node? location = none)
    (member : location ∈ places) :
    disk.Adds (disk.put location .directory) places := by
  refine ⟨rfl, fun place => ?_⟩
  rw [node?_put _ _ _ _ notRoot]
  split
  · rename_i same
    exact Or.inr ⟨same ▸ member, same ▸ absent, rfl⟩
  · exact Or.inl rfl

end Adds

end TaggedUnion.Disk
