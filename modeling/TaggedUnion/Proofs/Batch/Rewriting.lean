import TaggedUnion.Proofs.Batch.Beside
import TaggedUnion.Proofs.Disk.Obstacles

/-!
# Writing a second time

An artifact is written a second time to a disk that has kept what the first
attempt left there.  If the first attempt succeeded, so does the second, and it
puts the same file in place again.  If the disk refused the first one, it refuses
the second, which then changes nothing at all.

The second refusal is told in the same words as the first, although another
temporary name may be in use, with one exception: where the first attempt made
directories and then met an obstacle, the second one, which finds them there,
meets the obstacle on the way to the directory of its target.
-/

namespace TaggedUnion

/-- Two errors that are told in the same words. -/
structure DiskError.IsToldAs (first second : DiskError) : Prop where
  cause : second.cause = first.cause
  message : second.message = first.message

theorem Disk.Evolves.keeps
    {earlier later : Disk}
    {written made : List Location}
    (evolves : earlier.Evolves later written made) :
    earlier.Keeps later where
  tree := evolves.tree
  workingDirectory := evolves.workingDirectory
  directory := evolves.directory_kept
  file := by
    intro location content found
    rcases evolves.node? location with same | ⟨-, absent, -⟩ | ⟨-, -, other, there⟩
    · exact ⟨content, same.trans found⟩
    · rw [found] at absent
      cases absent
    · exact ⟨other, there⟩

namespace Replacement

open Disk

/-! ## Temporary names in messages -/

theorem mem_temporaryName_iff
    {character : Char}
    (noDigit : character.isDigit = false)
    (notAround : character ∉ (".tmp" : Text))
    (name : Text)
    (index : Nat) :
    character ∈ temporaryName name index ↔ character ∈ name := by
  have notInTag : character ∉ tag index := by
    unfold tag
    rw [List.mem_append, not_or]
    constructor
    · intro member
      obtain rfl := List.eq_of_mem_replicate member
      cases noDigit
    · intro member
      rw [Nat.isDigit_of_mem_toDigits (by decide) (by decide) member] at noDigit
      cases noDigit
  have notDot : character ∉ ("." : Text) := by
    intro member
    obtain rfl := List.mem_singleton.mp member
    exact notAround (by decide)
  simp only [temporaryName, Text.cat, List.flatten_cons, List.flatten_nil, List.append_nil,
    List.mem_append, notInTag, notDot, notAround, or_false, false_or]

/-- A temporary file is shown in the same quote marks whatever its number is. -/
theorem quoteMark_temporary
    (directory : Location)
    (name : Text)
    (first second : Nat) :
    Text.quoteMark (Path.absolute (directory ++ [temporaryName name second])).toText =
      Text.quoteMark (Path.absolute (directory ++ [temporaryName name first])).toText := by
  have member_iff
      (character : Char)
      (noDigit : character.isDigit = false)
      (notAround : character ∉ (".tmp" : Text))
      (notSlash : character ∉ ("/" : Text)) :
      character ∈ (Path.absolute (directory ++ [temporaryName name second])).toText ↔
        character ∈ (Path.absolute (directory ++ [temporaryName name first])).toText := by
    simp only [Path.absolute, Path.toText, Text.cat, List.flatten_cons, List.flatten_nil,
      List.append_nil, List.mem_append, Text.mem_joinWith_iff notSlash, List.mem_singleton,
      or_and_right, exists_or, exists_eq_left, mem_temporaryName_iff noDigit notAround]
  have single := member_iff '\'' (by decide) (by decide) (by decide)
  have double := member_iff '"' (by decide) (by decide) (by decide)
  simp only [Text.quoteMark, single, double]

theorem isToldAs_temporary
    (cause : DiskCause)
    (target : Option Path)
    (directory : Location)
    (name : Text)
    (first second : Nat) :
    DiskError.IsToldAs
      ⟨cause, .temporary (.absolute (directory ++ [temporaryName name first])), target⟩
      ⟨cause, .temporary (.absolute (directory ++ [temporaryName name second])), target⟩ where
  cause := rfl
  message := by
    simp only [DiskError.message, Subject.quoted, quoteMark_temporary directory name first second]

/-! ## Moving a file into place -/

variable {disk later : Disk} {path : Path}

theorem Settles.keeps
    {content : Bytes}
    {changes : Changes WriteError}
    (settles : Settles disk path content changes) :
    disk.Keeps (changes.last disk) := by
  cases ended : changes.outcome with
  | ok done => exact (Evolves.of_written (settles.written ended)).keeps
  | error error =>
      obtain ⟨lastTree, adds⟩ := settles.kept error ended
      exact (Evolves.of_adds lastTree adds).keeps

/-- What keeps a file from being moved to a path. -/
def obstacle? (disk : Disk) (path : Path) : Option DiskCause :=
  if endsInName path then
    match disk.locate path with
    | .error cause => some cause
    | .ok target => if disk.node? target = some .directory then some .isDirectory else none
  else
    some .busy

/-- How a write into a directory ends, with the number of its temporary name. -/
def ending (directory : Location) (path : Path) (obstacle : Option DiskCause) (index : Nat) :
    Except WriteError Unit :=
  let shown := Path.absolute (directory ++ [temporaryName path.name index])
  if lacksRoom directory path.name then
    .error (.disk ⟨.nameTooLong, .temporary shown, none⟩)
  else
    match obstacle with
    | none => .ok ()
    | some cause => .error (.disk ⟨cause, .temporary shown, some path⟩)

theorem ending_isToldAs
    (directory : Location)
    (path : Path)
    (obstacle : Option DiskCause)
    (first second : Nat) :
    ending directory path obstacle second = ending directory path obstacle first ∨
      ∃ error other,
        ending directory path obstacle first = .error (.disk error) ∧
          ending directory path obstacle second = .error (.disk other) ∧
          error.IsToldAs other := by
  unfold ending
  dsimp only
  split
  · exact Or.inr ⟨_, _, rfl, rfl, isToldAs_temporary _ _ _ _ _ _⟩
  · cases obstacle with
    | none => exact Or.inl rfl
    | some cause => exact Or.inr ⟨_, _, rfl, rfl, isToldAs_temporary _ _ _ _ _ _⟩

theorem rename_filled
    (tree : disk.IsTree)
    {name : Text}
    (found : disk.find path.parent = .ok .directory)
    (unused : disk.node? (disk.destination path.parent ++ [name]) = none)
    (content : Bytes) :
    ((filled disk (disk.destination path.parent ++ [name]) content).rename
        (disk.destination path.parent ++ [name]) path).map (fun _ => ()) =
      match obstacle? disk path with
      | none => .ok ()
      | some cause => .error cause := by
  have inside := ((tree.find_eq_directory_iff _).mp found).2
  have directory_iff := filled_directory_iff content unused
  have present :
      (filled disk (disk.destination path.parent ++ [name]) content).node?
        (disk.destination path.parent ++ [name]) = some (.file content) := by
    rw [node?_filled, if_pos rfl]
  have located :
      (filled disk (disk.destination path.parent ++ [name]) content).locate path =
        disk.locate path := by
    apply tree.locate_congr (isTree_filled content tree inside unused) rfl
    intro place member
    have passed := tree.passes_of_find found place member
    rw [passed]
    exact (directory_iff place).mpr passed
  unfold obstacle?
  cases named : endsInName path with
  | false => simp [rename, named, Except.map]
  | true =>
      cases reached : disk.locate path with
      | error cause => simp [rename, named, located, reached, bind, Except.bind, Except.map]
      | ok target =>
          rw [rename_of_locate named present (located.trans reached)]
          by_cases taken : disk.node? target = some .directory
          · rw [if_pos ((directory_iff target).mpr taken)]
            simp [taken, Except.map]
          · rw [if_neg fun found => taken ((directory_iff target).mp found)]
            simp [taken, Except.map]

/-- A write into a directory that is there ends as the obstacle to it tells. -/
theorem commit_outcome_eq_ending
    (tree : disk.IsTree)
    (found : disk.find path.parent = .ok .directory)
    (content : Bytes) :
    ∃ index,
      (commit disk (disk.destination path.parent) path content).outcome =
        ending (disk.destination path.parent) path (obstacle? disk path) index := by
  obtain ⟨index, fresh, unused, -⟩ :=
    freshName_first disk (disk.destination path.parent) path.name
  refine ⟨index, ?_⟩
  unfold commit ending
  dsimp only
  rw [fresh]
  split
  · rfl
  · have renamed := rename_filled tree found unused content
    unfold filled at renamed
    generalize Disk.rename (Disk.put (disk.put _ _) _ _) _ path = moved at renamed ⊢
    cases obstacle : obstacle? disk path with
    | none =>
        simp only [obstacle] at renamed
        cases moved with
        | ok state => rfl
        | error cause => cases renamed
    | some cause =>
        simp only [obstacle] at renamed
        cases moved with
        | ok state => cases renamed
        | error other =>
            cases renamed
            rfl

theorem obstacle?_of_some
    (tree : disk.IsTree)
    (keeps : disk.Keeps later)
    (found : disk.find path.parent = .ok .directory)
    {cause : DiskCause}
    (met : obstacle? disk path = some cause) :
    obstacle? later path = some cause := by
  have located : later.locate path = disk.locate path := by
    apply tree.locate_congr keeps.tree keeps.workingDirectory
    intro place member
    have passed := tree.passes_of_find found place member
    rw [passed]
    exact keeps.directory passed
  unfold obstacle? at met ⊢
  rw [located]
  cases named : endsInName path with
  | false => simpa [named] using met
  | true =>
      cases reached : disk.locate path with
      | error other => simpa [named, reached] using met
      | ok target =>
          by_cases taken : disk.node? target = some .directory
          · simpa [named, reached, taken, keeps.directory taken] using met
          · simp [named, reached, taken] at met

theorem obstacle?_of_written
    {content : Bytes}
    {final : Disk}
    (written : Written disk path content final)
    (named : endsInName path)
    (keeps : final.Keeps later) :
    obstacle? later path = none := by
  have located := keeps.locate_of_ok written.tree written.located
  obtain ⟨other, there⟩ := keeps.file ((written.node? (disk.destination path)).trans (if_pos rfl))
  simp [obstacle?, named, located, there]

theorem endsInName_of_obstacle?
    (clear : obstacle? disk path = none) :
    endsInName path := by
  unfold obstacle? at clear
  split at clear
  · assumption
  · cases clear

/-- A write into a directory that is there ends a second time as it did, but for a number. -/
theorem commit_again
    (tree : disk.IsTree)
    (found : disk.find path.parent = .ok .directory)
    (content : Bytes)
    (keeps : ((commit disk (disk.destination path.parent) path content).last disk).Keeps later) :
    (commit later (later.destination path.parent) path content).outcome =
        (commit disk (disk.destination path.parent) path content).outcome ∨
      ∃ error other,
        (commit disk (disk.destination path.parent) path content).outcome =
            .error (.disk error) ∧
          (commit later (later.destination path.parent) path content).outcome =
            .error (.disk other) ∧
          error.IsToldAs other := by
  have inside := ((tree.find_eq_directory_iff _).mp found).2
  have settles := settles_commit content tree inside
  have onward := settles.keeps.trans keeps
  have stillFound := onward.find_directory tree found
  have sameDirectory := destination_congr onward.workingDirectory path.parent
  obtain ⟨first, ended⟩ := commit_outcome_eq_ending tree found content
  obtain ⟨second, endedAgain⟩ := commit_outcome_eq_ending keeps.tree stillFound content
  have sameEnding :
      ending (disk.destination path.parent) path (obstacle? later path) second =
        ending (disk.destination path.parent) path (obstacle? disk path) second := by
    by_cases room : lacksRoom (disk.destination path.parent) path.name
    · simp [ending, room]
    · cases obstacle : obstacle? disk path with
      | some cause => rw [obstacle?_of_some tree onward found obstacle]
      | none =>
          have succeeded :
              (commit disk (disk.destination path.parent) path content).outcome = .ok () := by
            rw [ended, obstacle]
            simp [ending, room]
          rw [obstacle?_of_written (settles.written succeeded) (endsInName_of_obstacle? obstacle)
            keeps]
  rw [sameDirectory] at endedAgain ⊢
  rw [ended, endedAgain, sameEnding]
  exact ending_isToldAs _ path _ first second

/-! ## Replacing a file -/

/-- How the error of a write that led from one disk to another may come back later. -/
inductive Recurs (disk final : Disk) (path : Path) : WriteError → WriteError → Prop where
  /-- The same error. -/
  | same (error : WriteError) : Recurs disk final path error error
  /-- An error told in the same words. -/
  | told
      {error other : DiskError}
      (alike : error.IsToldAs other) :
      Recurs disk final path (.disk error) (.disk other)
  /-- After directories have been made, an obstacle that is met on a longer way. -/
  | further
      {names : List Text}
      {cause again : DiskCause}
      (isFront : names <+: path.parent.names)
      (shorter : names ≠ path.parent.names)
      (onTheWay : again = .notDirectory ∨ again = .nameTooLong)
      (made : ∃ place, disk.node? place = none ∧ final.node? place = some .directory) :
      Recurs disk final path
        (.disk ⟨cause, .node ⟨path.parent.anchor, names⟩, none⟩)
        (.disk ⟨again, .node path.parent, none⟩)

/--
What a second attempt to write does on a later disk, after a first one that ended
with the given outcome and led from one disk to another.
-/
structure Repeats
    (disk final later : Disk)
    (path : Path)
    (outcome : Except WriteError Unit)
    (second : Changes WriteError) :
    Prop where
  written :
    outcome = .ok () → second.outcome = .ok () ∧ later.find path.parent = .ok .directory
  failed : ∀ error, outcome = .error error → ¬ error.EndsBatch →
    ∃ other,
      second.outcome = .error other ∧
        Recurs disk final path error other ∧
        ∀ place, (second.last later).node? place = later.node? place

theorem Repeats.of_error
    {final : Disk}
    {outcome : Except WriteError Unit}
    {second : Changes WriteError}
    {error : WriteError}
    (ended : outcome = .error error)
    (again : ¬ error.EndsBatch →
      ∃ other,
        second.outcome = .error other ∧
          Recurs disk final path error other ∧
          ∀ place, (second.last later).node? place = later.node? place) :
    Repeats disk final later path outcome second where
  written succeeded := by
    rw [ended] at succeeded
    cases succeeded
  failed other same covered := by
    rw [ended] at same
    cases same
    exact again covered

/-- A write that fails into a directory that is there changes nothing. -/
theorem Settles.node?_of_error
    {content : Bytes}
    {changes : Changes WriteError}
    {error : WriteError}
    (settles : Settles disk path content changes)
    (tree : disk.IsTree)
    (found : disk.find path.parent = .ok .directory)
    (ended : changes.outcome = .error error)
    (place : Location) :
    (changes.last disk).node? place = disk.node? place := by
  rcases (settles.kept error ended).2.node? place with same | ⟨member, absent, -⟩
  · exact same
  · rw [tree.passes_of_find found place member] at absent
    cases absent

theorem repeats_commit
    (disk final : Disk)
    {reached : Disk}
    (reachedTree : reached.IsTree)
    (found : reached.find path.parent = .ok .directory)
    (content : Bytes)
    (keeps :
      ((commit reached (reached.destination path.parent) path content).last reached).Keeps later) :
    Repeats disk final later path
      (commit reached (reached.destination path.parent) path content).outcome
      (commit later (later.destination path.parent) path content) := by
  have inside := ((reachedTree.find_eq_directory_iff _).mp found).2
  have settles := settles_commit content reachedTree inside
  have stillFound := (settles.keeps.trans keeps).find_directory reachedTree found
  have stillInside := ((keeps.tree.find_eq_directory_iff _).mp stillFound).2
  have settlesAgain := settles_commit content keeps.tree stillInside
  have ends := commit_again reachedTree found content keeps
  constructor
  · intro succeeded
    refine ⟨?_, stillFound⟩
    rcases ends with same | ⟨error, other, failed, -⟩
    · exact same.trans succeeded
    · rw [failed] at succeeded
      cases succeeded
  · intro error failed _
    rcases ends with same | ⟨first, second, failedFirst, failedAgain, alike⟩
    · have failedAgain := same.trans failed
      exact ⟨error, failedAgain, .same error,
        settlesAgain.node?_of_error keeps.tree stillFound failedAgain⟩
    · rw [failedFirst] at failed
      obtain rfl := Except.error.inj failed
      exact ⟨.disk second, failedAgain, .told alike,
        settlesAgain.node?_of_error keeps.tree stillFound failedAgain⟩

/--
Either no report covers how a replacement ends, or a directory above cannot be
made, or they are all there in the end and the file is written.
-/
theorem replace_cases
    (tree : disk.IsTree)
    (path : Path)
    (content : Bytes) :
    let earlier := disk.ensureDirectory path.parent
    let reached := earlier.last disk
    (∃ error, (replace disk path content).outcome = .error error ∧ error.EndsBatch) ∨
      '\x00' ∉ path.parent.toText ∧
        ((∃ error,
            earlier.outcome = .error error ∧
              replace disk path content = ⟨earlier.states, .error (.disk error)⟩) ∨
          '\x00' ∉ path.name ∧
            reached.find path.parent = .ok .directory ∧
            replace disk path content =
              ⟨earlier.states ++
                  (commit reached (reached.destination path.parent) path content).states,
                (commit reached (reached.destination path.parent) path content).outcome⟩) := by
  intro earlier reached
  have builds := tree.builds_ensureDirectory path.parent
  by_cases null : '\x00' ∈ path.parent.toText
  · exact Or.inl ((replace_endsBatch_iff tree path content).mpr (.nullAbove null))
  by_cases deep : longestChain < disk.missingAbove path.parent
  · exact Or.inl ((replace_endsBatch_iff tree path content).mpr (.tooDeep deep))
  cases ended : earlier.outcome with
  | error error =>
      refine Or.inr ⟨null, Or.inl ⟨error, rfl, ?_⟩⟩
      unfold replace
      rw [if_neg null, if_neg deep]
      simp only [earlier] at ended
      simp only [ended, earlier]
  | ok done =>
      by_cases nullInName : '\x00' ∈ path.name
      · exact Or.inl ((replace_endsBatch_iff tree path content).mpr (.nullInName ended nullInName))
      have found := builds.reaches ended
      obtain ⟨located, -⟩ := ((builds.last_isTree tree).find_eq_directory_iff _).mp found
      refine Or.inr ⟨null, Or.inr ⟨nullInName, found, ?_⟩⟩
      unfold replace
      rw [if_neg null, if_neg deep]
      simp only [earlier] at ended
      simp only [ended, located, if_neg nullInName, earlier, reached]

theorem repeats_replace
    (tree : disk.IsTree)
    (path : Path)
    (content : Bytes)
    (keeps : ((replace disk path content).last disk).Keeps later) :
    Repeats disk ((replace disk path content).last disk) later path
      (replace disk path content).outcome (replace later path content) := by
  have builds := tree.builds_ensureDirectory path.parent
  have reachedTree := builds.last_isTree tree
  rcases replace_cases tree path content with
    ⟨error, ended, ends⟩ | ⟨noNull, ⟨error, refused, done⟩ | ⟨noNullInName, found, done⟩⟩
  · exact .of_error ended fun covered => (covered ends).elim
  · -- what could not be made cannot be made now either
    rw [done] at keeps ⊢
    obtain ⟨names, cause, again, isFront, told, refusedAgain, noneMissing, either⟩ :=
      ensureDirectory_again tree refused keeps
    have failedAgain :
        replace later path content = ⟨[], .error (.disk ⟨again, .node path.parent, none⟩)⟩ := by
      unfold replace
      rw [if_neg noNull, noneMissing, if_neg (Nat.not_lt_zero _), refusedAgain]
    rw [failedAgain, told]
    refine .of_error rfl fun _ => ⟨_, rfl, ?_, fun place => rfl⟩
    rcases either with ⟨rfl, rfl⟩ | ⟨shorter, onTheWay, made⟩
    · exact .same _
    · exact .further isFront shorter onTheWay made
  · rw [done] at keeps ⊢
    rw [Changes.last_append] at keeps
    have inside := ((reachedTree.find_eq_directory_iff _).mp found).2
    have onward := (settles_commit content reachedTree inside).keeps.trans keeps
    have stillFound := onward.find_directory reachedTree found
    rw [replace_of_directory keeps.tree noNull noNullInName stillFound]
    exact repeats_commit disk _ reachedTree found content keeps

/-- A write that is repeated ends as it did, and puts no more than the same file in place. -/
theorem repeats_write
    (tree : disk.IsTree)
    (path : Path)
    (artifact : Text)
    (schema : Option Schema)
    (keeps : ((write disk path artifact schema).last disk).Keeps later) :
    Repeats disk ((write disk path artifact schema).last disk) later path
      (write disk path artifact schema).outcome (write later path artifact schema) := by
  unfold write at keeps ⊢
  split
  · exact .of_error rfl fun _ => ⟨_, rfl, .same _, fun place => rfl⟩
  · rename_i accepted
    split at keeps
    · rename_i fault refused
      exact (accepted fault refused).elim
    · exact repeats_replace tree path _ keeps

/-- Directories are made only on the way to one whose path can be followed. -/
theorem short_of_made
    (artifact : Text)
    (schema : Option Schema)
    {place : Location}
    (absent : disk.node? place = none)
    (made : ((write disk path artifact schema).last disk).node? place = some .directory) :
    Utf8.size path.parent.toText ≤ longestPath := by
  by_contra! long
  have blocks : disk.Blocks path.parent .nameTooLong :=
    .onTheWay (by rw [locate, if_pos long]) (by simp)
  have unchanged : (write disk path artifact schema).states = [] := by
    unfold write
    split
    · rfl
    · unfold replace
      rw [blocks.ensureDirectory_eq.1]
      dsimp only
      split
      · rfl
      · split <;> rfl
  rw [Changes.last, unchanged] at made
  exact absurd (absent.symm.trans made) (by simp)

end Replacement

end TaggedUnion
