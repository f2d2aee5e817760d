import RegexCompiler.Program

/-!
# Program listings

A listing gives each instruction a line of its own. An instruction that some
branch leads to is preceded by a line with its label; labels are numbered from
one in program order, and branches name them instead of indices. Characters are
written as they are, so a line feed among them breaks the line it stands on.
-/

namespace RegexCompiler

namespace Program

/-- Which instructions some branch leads to. -/
def marks (program : Program) : Array Bool :=
  program.targets.foldl (fun marks target => marks.setIfInBounds target true)
    (Array.replicate program.size false)

/-- The label of every marked instruction, numbered from one in order. -/
def labels (program : Program) : Array (Option Nat) :=
  (program.marks.foldl
    (fun (numbered : Array (Option Nat) × Nat) marked =>
      if marked then (numbered.1.push (some (numbered.2 + 1)), numbered.2 + 1)
      else (numbered.1.push none, numbered.2))
    (#[], 0)).1

end Program

/-- One entry of a listing. The targets of its instruction are labels. -/
inductive Entry where
  | label (number : Nat)
  | line (inst : Inst Nat)
  deriving DecidableEq

/-- The label of an index. Every branch of a compiled program leads to a labelled
instruction, so the number zero never appears. -/
def labelOf (labels : Array (Option Nat)) (target : Nat) : Nat :=
  (labels[target]?.getD none).getD 0

/-- Entries of one instruction: its label, if it has one, and itself. -/
def instEntries (labels : Array (Option Nat)) (index : Nat) (inst : Inst Nat) : List Entry :=
  let line := Entry.line (inst.mapTargets (labelOf labels))
  match labels[index]?.getD none with
  | some number => [.label number, line]
  | none => [line]

/-- Entries of a program in order. -/
def Program.entries (program : Program) : List Entry :=
  let labels := program.labels
  program.insts.toList.zipIdx.flatMap fun placed => instEntries labels placed.2 placed.1

/-- Ranges as bounds in a row, each after a space. -/
def rangesText (ranges : List CharRange) : String :=
  ranges.foldl (fun text range => ((((text.push ' ').push range.1).push ' ').push range.2)) ""

/-- An instruction whose targets are labels, as a mnemonic and its operands. -/
def instText : Inst Nat → String
  | .accept => "match"
  | .char c => "char ".push c
  | .any => "any"
  | .oneOf ranges => "range" ++ rangesText ranges
  | .noneOf ranges => "nrange" ++ rangesText ranges
  | .save slot => s!"save {slot}"
  | .jump target => s!"jump L{target}"
  | .split first second => s!"split L{first} L{second}"

/-- The line of an entry. Instructions are indented, labels are not. -/
def Entry.text : Entry → String
  | .label number => s!"L{number}:\n"
  | .line inst => "    " ++ instText inst ++ "\n"

/-- The listing of a program. -/
def Program.listing (program : Program) : String :=
  program.entries.foldl (fun text entry => text ++ entry.text) ""

end RegexCompiler
