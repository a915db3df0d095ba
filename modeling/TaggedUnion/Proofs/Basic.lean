import Mathlib.Data.List.Basic
import Mathlib.Data.List.Induction

/-!
# Lists and results

Facts on lists and on results that may fail which mention no text, no document
and no disk.
-/

namespace TaggedUnion

section

variable {α β γ : Type}

/-! ## Where the elements of a list stand -/

/--
Two lists that agree have the same first mark, with the same elements before
it and after it.
-/
theorem append_mark_inj
    (keeps : α → Prop)
    {left right leftRest rightRest : List α}
    {leftMark rightMark : α}
    (leftKeeps : ∀ element ∈ left, keeps element)
    (rightKeeps : ∀ element ∈ right, keeps element)
    (leftStops : ¬ keeps leftMark)
    (rightStops : ¬ keeps rightMark)
    (equal : left ++ leftMark :: leftRest = right ++ rightMark :: rightRest) :
    left = right ∧ leftMark = rightMark ∧ leftRest = rightRest := by
  induction left generalizing right with
  | nil =>
      cases right with
      | nil => simpa using equal
      | cons element right =>
          obtain ⟨rfl, -⟩ := List.cons.inj equal
          exact (leftStops (rightKeeps _ List.mem_cons_self)).elim
  | cons element left induction =>
      cases right with
      | nil =>
          obtain ⟨rfl, -⟩ := List.cons.inj equal
          exact (rightStops (leftKeeps _ List.mem_cons_self)).elim
      | cons other right =>
          obtain ⟨rfl, tailEqual⟩ := List.cons.inj equal
          have tails :=
            induction
              (fun element member => leftKeeps element (List.mem_cons_of_mem _ member))
              (fun element member => rightKeeps element (List.mem_cons_of_mem _ member))
              tailEqual
          exact ⟨by rw [tails.1], tails.2⟩

/-- Where an element stands in two lists that follow each other. -/
theorem split_append
    {first second before after : List α}
    {element : α}
    (split : first ++ second = before ++ element :: after) :
    (∃ rest, first = before ++ element :: rest ∧ after = rest ++ second) ∨
      ∃ rest, before = first ++ rest ∧ second = rest ++ element :: after := by
  rcases List.append_eq_append_iff.mp split with
    ⟨rest, isBefore, isSecond⟩ | ⟨rest, isFirst, isAfter⟩
  · exact Or.inr ⟨rest, isBefore, isSecond⟩
  · rcases List.cons_eq_append_iff.mp isAfter with ⟨rfl, isSecond⟩ | ⟨more, rfl, same⟩
    · exact Or.inr ⟨[], by simpa using isFirst.symm, isSecond⟩
    · exact Or.inl ⟨more, isFirst, same⟩

theorem map_inj_of_mem
    {form : α → β}
    {first second : List α}
    (formInj : ∀ left ∈ first, ∀ right ∈ second, form left = form right → left = right)
    (equal : first.map form = second.map form) :
    first = second := by
  induction first generalizing second with
  | nil => exact (List.map_eq_nil_iff.mp equal.symm).symm
  | cons left first induction =>
      cases second with
      | nil => cases equal
      | cons right second =>
          obtain ⟨sameHead, sameTail⟩ := List.cons.inj equal
          rw [formInj left List.mem_cons_self right List.mem_cons_self sameHead,
            induction (fun left leftMember right rightMember =>
              formInj left (List.mem_cons_of_mem _ leftMember) right
                (List.mem_cons_of_mem _ rightMember)) sameTail]

theorem filterMap_map_eq_nil
    {form : α → β}
    {reader : β → Option γ}
    (unread : ∀ element, reader (form element) = none)
    (elements : List α) :
    (elements.map form).filterMap reader = [] := by
  rw [List.filterMap_map, List.filterMap_eq_nil_iff]
  intro element _
  exact unread element

section

variable [DecidableEq α] {elements earlier later : List α} {element : α}

/-- A list is read up to the first of its elements that equals a mark. -/
theorem takeWhile_ne_append
    (absent : element ∉ earlier)
    (later : List α) :
    (earlier ++ element :: later).takeWhile (· ≠ element) = earlier := by
  have goesOn : ∀ other ∈ earlier, decide (other ≠ element) = true := by
    intro other member
    rw [decide_eq_true_eq]
    rintro rfl
    exact absent member
  have stops : (element :: later).takeWhile (· ≠ element) = [] := by
    apply List.takeWhile_cons_of_neg
    rw [decide_eq_true_eq]
    exact not_not_intro rfl
  rw [List.takeWhile_append_of_pos goesOn, stops, List.append_nil]

theorem find?_zipIdx_of_first
    (split : elements = earlier ++ element :: later)
    (isFirst : element ∉ earlier) :
    elements.zipIdx.find? (fun entry => entry.1 = element) =
      some (element, earlier.length) := by
  have others : earlier.zipIdx.find? (fun entry => entry.1 = element) = none := by
    rw [List.find?_eq_none]
    intro entry member same
    exact isFirst (of_decide_eq_true same ▸ List.fst_mem_of_mem_zipIdx member)
  rw [split, List.zipIdx_append, List.find?_append, others, List.zipIdx_cons,
    List.find?_cons_of_pos (by simp), Nat.zero_add]
  rfl

theorem findIdx?_of_first
    (split : elements = earlier ++ element :: later)
    (isFirst : element ∉ earlier) :
    elements.findIdx? (· = element) = some earlier.length := by
  have others : earlier.findIdx? (· = element) = none := by
    rw [List.findIdx?_eq_none_iff]
    intro other member
    rw [decide_eq_false_iff_not]
    rintro rfl
    exact isFirst member
  rw [split, List.findIdx?_append, others, List.findIdx?_cons, if_pos (by simp)]
  simp

end

/-! ## Lists without their repetitions -/

section

variable [BEq α] [LawfulBEq α]

/-- Without its repetitions, a list has its elements in the order of their first occurrence. -/
theorem pairwise_idxOf_eraseDups (elements : List α) :
    elements.eraseDups.Pairwise fun first second =>
      elements.idxOf first < elements.idxOf second := by
  induction elements using List.reverseRecOn with
  | nil => exact List.Pairwise.nil
  | append_singleton elements last induction =>
      have earlier :
          elements.eraseDups.Pairwise fun first second =>
            (elements ++ [last]).idxOf first < (elements ++ [last]).idxOf second := by
        refine induction.imp_of_mem fun inFirst inSecond before => ?_
        rwa [List.idxOf_append_of_mem (List.mem_eraseDups.mp inFirst),
          List.idxOf_append_of_mem (List.mem_eraseDups.mp inSecond)]
      rw [List.eraseDups_append]
      by_cases known : last ∈ elements
      · simpa [List.removeAll, known] using earlier
      · have alone : ([last].removeAll elements).eraseDups = [last] := by
          simp [List.removeAll, known, List.eraseDups_cons]
        rw [alone]
        refine List.pairwise_append.mpr ⟨earlier, List.pairwise_singleton _ _, ?_⟩
        intro first inFirst second inSecond
        have inElements := List.mem_eraseDups.mp inFirst
        rw [List.mem_singleton.mp inSecond, List.idxOf_append_of_mem inElements,
          List.idxOf_append, if_neg known]
        exact Nat.lt_of_lt_of_le (List.idxOf_lt_length_iff.mpr inElements) (Nat.le_add_left _ _)

theorem nodup_eraseDups (elements : List α) : elements.eraseDups.Nodup := by
  refine (pairwise_idxOf_eraseDups elements).imp ?_
  rintro first _ before rfl
  exact Nat.lt_irrefl _ before

end

/-! ## Lists of results -/

theorem mapM_eq_some_of_map_eq
    {read : α → Option β}
    {elements : List α}
    {values : List β}
    (all : elements.map read = values.map some) :
    elements.mapM read = some values := by
  induction elements generalizing values with
  | nil =>
      rw [List.map_nil, eq_comm, List.map_eq_nil_iff] at all
      rw [all]
      rfl
  | cons element elements induction =>
      rcases List.map_eq_cons_iff.mp all.symm with ⟨value, rest, rfl, first, others⟩
      rw [List.mapM_cons, ← first, induction others.symm]
      rfl

end

section

variable {ε ε' α β : Type} {results : List (Except ε α)}

theorem eq_map_of_mapM_id
    {values : List α}
    (gathered : results.mapM id = .ok values) :
    results = values.map .ok := by
  induction results generalizing values with
  | nil =>
      cases gathered
      rfl
  | cons first rest induction =>
      rw [List.mapM_cons] at gathered
      cases first with
      | error failure => cases gathered
      | ok value =>
          cases tail : rest.mapM id with
          | error failure =>
              rw [tail] at gathered
              cases gathered
          | ok others =>
              rw [tail] at gathered
              cases gathered
              rw [induction tail, List.map_cons]

/-- Results are gathered if and only if all of them are successes. -/
theorem mapM_id_eq_ok_iff {values : List α} :
    results.mapM id = .ok values ↔ results = values.map .ok := by
  constructor
  · exact eq_map_of_mapM_id
  · rintro rfl
    induction values with
    | nil => rfl
    | cons value rest induction =>
        rw [List.map_cons, List.mapM_cons, induction]
        rfl

theorem exists_eq_map_ok
    (succeeded : ∀ result ∈ results, ∃ value, result = .ok value) :
    ∃ values : List α, results = values.map .ok := by
  induction results with
  | nil => exact ⟨[], rfl⟩
  | cons result rest induction =>
      obtain ⟨⟨value, rfl⟩, others⟩ := List.forall_mem_cons.mp succeeded
      obtain ⟨values, rfl⟩ := induction others
      exact ⟨value :: values, rfl⟩

/-- Results that are not gathered fail for the reason of one of them. -/
theorem error_mem_of_mapM_id
    {failure : ε}
    (failed : results.mapM id = .error failure) :
    .error failure ∈ results := by
  induction results with
  | nil => cases failed
  | cons first rest induction =>
      rw [List.mapM_cons] at failed
      cases first with
      | error earlier =>
          cases failed
          exact List.mem_cons_self
      | ok value =>
          cases later : rest.mapM id with
          | error earlier =>
              rw [later] at failed
              cases failed
              exact List.mem_cons_of_mem _ (induction later)
          | ok values =>
              rw [later] at failed
              cases failed

/-! ## Single results -/

theorem toOption_eq_some_iff
    {result : Except ε α}
    {value : α} :
    result.toOption = some value ↔ result = .ok value := by
  cases result <;> simp [Except.toOption]

theorem map_mapError_eq_ok_iff
    (result : Except ε α)
    (embed : ε → ε')
    (build : α → β)
    (value : β) :
    (result.mapError embed).map build = .ok value ↔
      ∃ read, result = .ok read ∧ build read = value := by
  cases result <;> simp [Except.mapError, Except.map]

/-- Two results with the same view have both succeeded or have failed for the same reason. -/
theorem eq_or_eq_of_map_eq
    {result : Except ε' α}
    {viewed : Except ε β}
    {view : α → β}
    {embed : ε → ε'}
    (same : result.map view = viewed.mapError embed) :
    (∃ value, result = .ok value ∧ viewed = .ok (view value)) ∨
      ∃ reason, result = .error (embed reason) ∧ viewed = .error reason := by
  cases result <;> cases viewed <;> simp_all [Except.map, Except.mapError]

end

end TaggedUnion
