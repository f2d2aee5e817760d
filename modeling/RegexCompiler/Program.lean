import RegexCompiler.Instruction

/-!
# Programs

A program is a flat array of instructions that starts at index zero, together
with the number of capture slots its instructions write, two for each group.
Branch targets are indices of instructions.
-/

namespace RegexCompiler

/-- A finished program. -/
structure Program where
  insts : Array (Inst Nat)
  slots : Nat
  deriving DecidableEq

namespace Program

/-- Number of instructions. -/
def size (program : Program) : Nat := program.insts.size

/-- Whether there is no instruction at all. -/
def isEmpty (program : Program) : Bool := program.insts.isEmpty

/-- All branch targets, in the order of the instructions that hold them. -/
def targets (program : Program) : List Nat := program.insts.toList.flatMap Inst.targets

end Program

end RegexCompiler
