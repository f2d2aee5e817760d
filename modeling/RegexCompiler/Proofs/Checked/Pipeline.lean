import RegexCompiler.Compiled
import RegexCompiler.Proofs.Checked.Emitting
import RegexCompiler.Proofs.Checked.Parsing
import RegexCompiler.Proofs.Labels

/-!
# No pattern meets a fault

A listing is written with checks as well: every index into an array must be below its
length, and no label that is written may be zero, which is what an instruction without
a label would come out as.

The whole run of a pattern, from its text to its outline and its listing, then meets
no fault, whatever the pattern is, and gives what the plain definitions give.
-/

namespace RegexCompiler.Checked

/-! ### Listings -/

/-- The item of an array at an index. -/
def fetch {α : Type} (items : Array α) (index : Nat) : Except Fault α :=
  match items[index]? with
  | some item => .ok item
  | none => .error .indexOutside

/-- Mark the instruction a branch leads to. -/
def mark (marks : Array Bool) (target : Nat) : Except Fault (Array Bool) :=
  if target < marks.size then .ok (marks.setIfInBounds target true) else .error .indexOutside

/-- The labels of marked instructions, numbered from one in order. -/
def numbered (marks : Array Bool) : Array (Option Nat) :=
  (marks.foldl
    (fun (numbered : Array (Option Nat) × Nat) marked =>
      if marked then (numbered.1.push (some (numbered.2 + 1)), numbered.2 + 1)
      else (numbered.1.push none, numbered.2))
    (#[], 0)).1

/-- The label of every instruction that some branch leads to. -/
def labels (program : Program) : Except Fault (Array (Option Nat)) := do
  let marks ← program.targets.foldlM mark (Array.replicate program.size false)
  return numbered marks

/-- A label that may be written. -/
def written (number : Nat) : Except Fault Nat :=
  if number = 0 then .error .unlabelled else .ok number

/-- The label of an index, zero if it has none. -/
def labelOf (labels : Array (Option Nat)) (target : Nat) : Except Fault Nat := do
  let label ← fetch labels target
  written (label.getD 0)

/-- Entries of one instruction: its label, if it has one, and itself. -/
def instEntries (labels : Array (Option Nat)) (index : Nat) (inst : Inst Nat) :
    Except Fault (List Entry) := do
  let label ← fetch labels index
  let number ← label.mapM written
  let line ← inst.mapTargetsM (labelOf labels)
  return (number.map Entry.label).toList ++ [.line line]

/-- The listing of a program. -/
def listing (program : Program) : Except Fault String := do
  let labels ← labels program
  let entries ← program.insts.toList.zipIdx.mapM fun placed =>
    instEntries labels placed.2 placed.1
  return entries.flatten.foldl (fun text entry => text ++ entry.text) ""

/-- Targets below the number of marks can be marked one after the other. -/
theorem foldlM_mark (targets : List Nat) (marks : Array Bool)
    (inside : ∀ target ∈ targets, target < marks.size) :
    targets.foldlM mark marks =
      .ok (targets.foldl (fun marks target => marks.setIfInBounds target true) marks) := by
  induction targets generalizing marks with
  | nil => rfl
  | cons target others inductionHypothesis =>
    rw [List.forall_mem_cons] at inside
    rw [List.foldlM_cons, mark, if_pos inside.1, ok_bind, List.foldl_cons]
    exact inductionHypothesis _ (by simpa using inside.2)

/-- Where no branch leads out of the program, labels are handed out. -/
theorem labels_eq {program : Program}
    (inside : ∀ target ∈ program.targets, target < program.size) :
    labels program = .ok program.labels := by
  rw [labels, foldlM_mark _ _ (by simpa using inside)]
  rfl

/-- Every branch target has a label that may be written. -/
theorem labelOf_eq {program : Program}
    (inside : ∀ target ∈ program.targets, target < program.size) {target : Nat}
    (targeted : target ∈ program.targets) :
    labelOf program.labels target = .ok (RegexCompiler.labelOf program.labels target) := by
  obtain ⟨number, found⟩ := program.exists_label (inside target targeted) targeted
  simp [labelOf, RegexCompiler.labelOf, fetch, found, written]

/-- Every instruction can be written. -/
theorem instEntries_eq {program : Program}
    (inside : ∀ target ∈ program.targets, target < program.size) {index : Nat} {inst : Inst Nat}
    (found : program.insts[index]? = some inst) :
    instEntries program.labels index inst =
      .ok (RegexCompiler.instEntries program.labels index inst) := by
  have here : index < program.size := (Array.getElem?_eq_some_iff.mp found).1
  have line : inst.mapTargetsM (labelOf program.labels) =
      .ok (inst.mapTargets (RegexCompiler.labelOf program.labels)) := by
    refine mapTargetsM_eq_ok inst ?_
    intro target present
    refine labelOf_eq inside (List.mem_flatMap.mpr ⟨inst, ?_, present⟩)
    exact Array.mem_toList_iff.mpr (Array.mem_of_getElem? found)
  by_cases targeted : index ∈ program.targets
  · obtain ⟨number, label⟩ := program.exists_label here targeted
    simp [instEntries, RegexCompiler.instEntries, fetch, label, written, line]
  · have unlabelled := program.no_label here targeted
    simp [instEntries, RegexCompiler.instEntries, fetch, unlabelled, line]

/-- Where no branch leads out of the program, writing its listing meets no fault. -/
theorem listing_eq {program : Program}
    (inside : ∀ target ∈ program.targets, target < program.size) :
    listing program = .ok program.listing := by
  have entries := mapM_eq_ok (program.insts.toList.zipIdx)
    (fun placed present => instEntries_eq inside
      ((Array.getElem?_toList ..).symm.trans (List.mem_zipIdx_iff_getElem?.mp present)))
  rw [listing, labels_eq inside, ok_bind, entries, ok_bind, ← List.flatMap_def]
  rfl

example : listing ⟨#[.jump 1], 0⟩ = .error .indexOutside := by rfl

/-! ### Runs -/

/-- What a run gives for a pattern without a syntax error. -/
structure Run where
  compiled : Compiled
  outline : String
  listing : String

/-- Compile a pattern, and write the outline of its tree and the listing of its
program. -/
def run (pattern : String) : Except Fault (Except SyntaxError Run) := do
  match ← parse pattern with
  | .error error => return .error error
  | .ok tree =>
    let program ← program tree
    let listing ← listing program
    return .ok ⟨⟨pattern, tree, program⟩, tree.outlineText, listing⟩

/-- No pattern meets a fault. A run ends with the syntax error of the pattern or with
its compiled form, and then with the outline and the listing of that. -/
theorem run_eq_ok (pattern : String) :
    run pattern = .ok ((Compiled.ofPattern pattern).map fun compiled =>
      ⟨compiled, compiled.outlineText, compiled.listing⟩) := by
  rw [run, parse_eq, ok_bind, Compiled.ofPattern]
  cases RegexCompiler.parse pattern with
  | error error => rfl
  | ok tree =>
    simp only [program_eq, ok_bind, listing_eq tree.program_wellFormed.targets_lt]
    rfl

end RegexCompiler.Checked
