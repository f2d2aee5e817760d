import RegexCompiler.Program

/-!
# Pieces of code

A fragment is code that can be placed anywhere, because its branches are
distances from the instruction that holds them. It ends with a placeholder that
accepts. A branch that lands on the placeholder dangles: it leads to whatever
comes next.

Joining drops the placeholder of the left fragment and puts the right one in its
place. Nothing is renumbered, so dangling branches now lead to the first
instruction of the right fragment, and branches beyond the placeholder reach as
far as before. That is how a construct refers to pieces joined after it.
-/

namespace RegexCompiler

/-- Code whose branch targets are relative. -/
structure Fragment where
  insts : Array (Inst Int)
  deriving DecidableEq

namespace Fragment

/-- The placeholder alone, which matches the empty text. -/
def empty : Fragment := ⟨#[.accept]⟩

/-- One instruction and the placeholder. -/
def single (inst : Inst Int) : Fragment := ⟨#[inst, .accept]⟩

/-- Number of instructions, the placeholder included. -/
def size (fragment : Fragment) : Nat := fragment.insts.size

/-- Index of the placeholder. -/
def hole (fragment : Fragment) : Nat := fragment.insts.size - 1

/-- Where every branch lands, counted from the start of the fragment. -/
def landings (fragment : Fragment) : List Int :=
  fragment.insts.toList.zipIdx.flatMap fun placed =>
    placed.1.targets.map fun distance => (placed.2 : Int) + distance

/-- Number of branches that lead to whatever comes next. -/
def dangling (fragment : Fragment) : Nat :=
  fragment.landings.count (fragment.hole : Int)

/-- Put a fragment in the place of the placeholder. -/
def join (left right : Fragment) : Fragment := ⟨left.insts.pop ++ right.insts⟩

/-- Join fragments one after the other to a first one. -/
def joinAll (first : Fragment) (others : List Fragment) : Fragment :=
  others.foldl join first

/-- Turn distances into indices. In a complete fragment every branch lands on one
of its instructions, so no index is negative. -/
def resolve (fragment : Fragment) (slots : Nat) : Program :=
  ⟨fragment.insts.mapIdx fun index inst =>
    inst.mapTargets fun distance => ((index : Int) + distance).toNat, slots⟩

end Fragment

end RegexCompiler
