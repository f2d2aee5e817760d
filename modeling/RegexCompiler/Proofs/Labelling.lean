import Mathlib.Data.List.Dedup
import RegexCompiler.Proofs.Decoding

/-!
# Labels count the branch targets

The label of an instruction is the number of branch targets up to and including it, so
labels are handed out from one on, in program order and without a gap, one for each
distinct target. A listing writes the label of an instruction in front of it and names
the same label wherever a branch leads to it. A label that is written is therefore named
by some branch, and a label that is named is written in one place.

Marking the targets and numbering the marks are two loops over the program. Both are
described through the row of marks, which says of each index whether it is a target.
-/

namespace RegexCompiler

/-! ### Numbers without a gap -/

namespace Program

/-- Number of branch targets up to and including an index. -/
def labelNumber (program : Program) (index : Nat) : Nat :=
  (List.range (index + 1)).countP (· ∈ program.targets)

/-- The marks say of each index whether it is a branch target. -/
theorem toList_marks (program : Program) :
    program.marks.toList = (List.range program.size).map fun index =>
      decide (index ∈ program.targets) := by
  refine List.ext_getElem? fun index => ?_
  rw [Array.getElem?_toList, marks_getElem?, List.getElem?_map]
  by_cases inside : index < program.size
  · rw [if_pos inside, List.getElem?_range inside, Option.map_some]
  · rw [if_neg inside, List.getElem?_eq_none (by simpa using inside), Option.map_none]

/-- Of the instructions, exactly the branch targets have a label, which is the number of
targets up to them. -/
theorem labels_eq (program : Program) (index : Nat) :
    program.labels[index]? =
      if index < program.size then
        some (if index ∈ program.targets then some (program.labelNumber index) else none)
      else none := by
  rw [labels_getElem?, marks_getElem?]
  by_cases inside : index < program.size
  · have counted : (program.marks.toList.take (index + 1)).count true =
        program.labelNumber index := by
      rw [toList_marks, ← List.map_take, List.take_range, Nat.min_eq_left inside, labelNumber,
        List.count, List.countP_map]
      exact List.countP_congr fun earlier _ => by simp
    simp only [if_pos inside, Option.map_some, counted, decide_eq_true_eq]
  · simp only [if_neg inside, Option.map_none]

end Program

/-! ### Entries of a listing -/

namespace Program

end Program

end RegexCompiler
