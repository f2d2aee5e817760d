import RegexCompiler.Listing

/-!
# Which instructions have a label, and which number

An instruction is marked if its index is among the branch targets of the program.
Its label is then the number of marked instructions up to and including itself, so
numbers begin at one and grow in program order.
-/

namespace RegexCompiler

namespace Program

/-- Marking targets one after the other marks exactly these, and no index beyond the
marks there are. -/
theorem foldl_setIfInBounds_getElem? (targets : List Nat) (marks : Array Bool) (index : Nat) :
    (targets.foldl (fun marks target => marks.setIfInBounds target true) marks)[index]? =
      marks[index]?.map fun marked => marked || decide (index ∈ targets) := by
  induction targets generalizing marks with
  | nil => simp
  | cons target others inductionHypothesis =>
    rw [List.foldl_cons, inductionHypothesis, Array.getElem?_setIfInBounds]
    by_cases same : target = index
    · subst same
      by_cases inside : target < marks.size
      · simp [inside]
      · simp [inside]
    · have other : index ≠ target := fun equal => same equal.symm
      simp [same, other]

/-- The marked instructions are those some branch leads to. -/
theorem marks_getElem? (program : Program) (index : Nat) :
    program.marks[index]? =
      if index < program.size then some (decide (index ∈ program.targets)) else none := by
  rw [marks, foldl_setIfInBounds_getElem?, Array.getElem?_replicate]
  split
  · simp
  · rfl

/-- The labels of a row of marks when `count` were given before. -/
def numberFrom (count : Nat) : List Bool → List (Option Nat)
  | [] => []
  | true :: others => some (count + 1) :: numberFrom (count + 1) others
  | false :: others => none :: numberFrom count others

/-- The loop that hands out labels appends those of the marks that are left. -/
theorem foldl_numbered (marks : List Bool) (numbered : Array (Option Nat)) (count : Nat) :
    (marks.foldl
      (fun (numbered : Array (Option Nat) × Nat) marked =>
        if marked then (numbered.1.push (some (numbered.2 + 1)), numbered.2 + 1)
        else (numbered.1.push none, numbered.2))
      (numbered, count)).1.toList = numbered.toList ++ numberFrom count marks := by
  induction marks generalizing numbered count with
  | nil => simp [numberFrom]
  | cons marked others inductionHypothesis =>
    cases marked with
    | true => simp [numberFrom, inductionHypothesis]
    | false => simp [numberFrom, inductionHypothesis]

/-- A label counts the marks up to and including its own. -/
theorem numberFrom_getElem? (marks : List Bool) (count index : Nat) :
    (numberFrom count marks)[index]? = marks[index]?.map fun marked =>
      if marked then some (count + (marks.take (index + 1)).count true) else none := by
  induction marks generalizing count index with
  | nil => simp [numberFrom]
  | cons marked others inductionHypothesis =>
    cases index with
    | zero => cases marked <;> simp [numberFrom]
    | succ index =>
      cases marked with
      | true =>
        simp only [numberFrom, List.getElem?_cons_succ, inductionHypothesis, List.take_succ_cons,
          List.count_cons_self]
        congr 2
        funext marked
        rw [Nat.add_assoc, Nat.add_comm 1]
      | false => simp [numberFrom, inductionHypothesis]

/-- The labels of a program are those of its row of marks. -/
theorem toList_labels (program : Program) :
    program.labels.toList = numberFrom 0 program.marks.toList := by
  rw [labels, ← Array.foldl_toList, foldl_numbered]
  simp

/-- The label of an instruction is the number of marked instructions up to and
including it. -/
theorem labels_getElem? (program : Program) (index : Nat) :
    program.labels[index]? = program.marks[index]?.map fun marked =>
      if marked then some ((program.marks.toList.take (index + 1)).count true) else none := by
  rw [← Array.getElem?_toList, toList_labels, numberFrom_getElem?, Array.getElem?_toList]
  simp

/-- A branch target has a label, and its number is not zero. -/
theorem exists_label (program : Program) {index : Nat} (inside : index < program.size)
    (targeted : index ∈ program.targets) :
    ∃ number, program.labels[index]? = some (some (number + 1)) := by
  have marked : program.marks[index]? = some true := by
    rw [marks_getElem?, if_pos inside, decide_eq_true targeted]
  have counted : 0 < (program.marks.toList.take (index + 1)).count true := by
    rw [List.count_pos_iff]
    refine List.mem_of_getElem? (i := index) ?_
    rw [List.getElem?_take_of_lt (Nat.lt_succ_self index), Array.getElem?_toList, marked]
  refine ⟨(program.marks.toList.take (index + 1)).count true - 1, ?_⟩
  rw [labels_getElem?, marked, Option.map_some, if_pos rfl, Nat.sub_add_cancel counted]

/-- An instruction no branch leads to has no label. -/
theorem no_label (program : Program) {index : Nat} (inside : index < program.size)
    (untargeted : index ∉ program.targets) : program.labels[index]? = some none := by
  rw [labels_getElem?, marks_getElem?, if_pos inside, decide_eq_false untargeted, Option.map_some,
    if_neg Bool.false_ne_true]

/-- Labels grow in program order. -/
theorem labels_increase (program : Program) {earlier later left right : Nat}
    (before : earlier < later) (first : program.labels[earlier]? = some (some left))
    (second : program.labels[later]? = some (some right)) : left < right := by
  rw [labels_getElem?, Option.map_eq_some_iff] at first second
  obtain ⟨marked, _, leftNumber⟩ := first
  obtain ⟨alsoMarked, last, rightNumber⟩ := second
  cases marked with
  | false => simp at leftNumber
  | true =>
    cases alsoMarked with
    | false => simp at rightNumber
    | true =>
      simp only [↓reduceIte, Option.some.injEq] at leftNumber rightNumber
      have within : (program.marks.toList.take (earlier + 1)).count true ≤
          (program.marks.toList.take later).count true :=
        (List.take_sublist_take_left before).count_le true
      rw [List.take_add_one, Array.getElem?_toList, last, List.count_append] at rightNumber
      simp only [Option.toList_some, List.count_singleton_self] at rightNumber
      omega

end Program

end RegexCompiler
