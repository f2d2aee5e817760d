import RegexCompiler.Proofs.Layout

/-!
# Alternatives one at a time

The alternatives of a regex are compiled in a loop. All of them are compiled first; then
their lengths are added up, and each turn of the loop takes off what its alternative takes
up, so that the rest is the distance its jump has to bridge. The loop handles chains of any
length without recursion.

The scheme behind it is recursive. A regex is its first alternative and the regex of the
others: a split leads to the one or to the other, and a jump leads from the end of the first
past all the code of the others, which is compiled with the slots the first has left. Both
ways arrive at the same code and at the same number of slots.
-/

namespace RegexCompiler

open Fragment (ofBlock)

/-- The code of an alternative and that of all others behind it. The split skips the first
part and its jump, the jump skips the second part, and one placeholder ends both. -/
def Fragment.alternate (branch others : Fragment) : Fragment :=
  ⟨#[.split 1 (branch.hole + 2)] ++ branch.insts.pop ++ #[.jump (others.hole + 1)] ++
    others.insts.pop ++ #[.accept]⟩

/-- Compile the first alternative, and then the others with the slots it has left. -/
def Regex.emitRecursively (slots : Nat) : Regex → Emitted
  | .single sequence => sequence.emit slots
  | .alternate sequence _ rest =>
    let branch := sequence.emit slots
    let others := rest.emitRecursively branch.slots
    ⟨branch.code.alternate others.code, others.slots⟩

/-- The code of two parts is laid out as an alternation of their blocks. -/
theorem Fragment.alternate_ofBlock (branch others : Block) :
    (ofBlock branch).alternate (ofBlock others) = ofBlock (alternateLayout branch others) := by
  rw [Fragment.alternate, hole_ofBlock, hole_ofBlock]
  simp [ofBlock, alternateLayout]

/-- Compiling a sequence on its own yields its block. -/
theorem Sequence.emit_eq (sequence : Sequence) (slots : Nat) :
    sequence.emit slots =
      ⟨ofBlock (sequence.layout slots), slots + 2 * sequence.groups⟩ :=
  sequence.emitAfter_eq [] slots

/-- Compiling one alternative after the other yields the block of the regex. -/
theorem Regex.emitRecursively_eq (slots : Nat) : (regex : Regex) →
    regex.emitRecursively slots = ⟨ofBlock (regex.layout slots), slots + 2 * regex.groups⟩
  | .single sequence => sequence.emit_eq slots
  | .alternate sequence _ rest => by
    simp only [Regex.emitRecursively, sequence.emit_eq, rest.emitRecursively_eq,
      Fragment.alternate_ofBlock, Regex.layout, Regex.groups]
    congr 1
    omega

/-- The loop over the alternatives yields the code of the recursive scheme and leaves as many
slots taken, however many are taken before. -/
theorem Regex.emit_eq_emitRecursively (regex : Regex) (slots : Nat) :
    regex.emit slots = regex.emitRecursively slots :=
  (regex.emit_eq slots).trans (regex.emitRecursively_eq slots).symm

end RegexCompiler
