import RegexCompiler.Emission

/-!
# The recursive layout of a tree

The compiler joins fragments, carries accumulators through its loops and counts
down the instructions that remain in an alternation. The code it arrives at has
a plainer description: a block is the list of instructions of a construct
without a placeholder, and the block of a tree is put together from the blocks
of its parts by appending. Branches stay relative, so a block is the same
wherever it stands.

The law of this module is that the compiled fragment of every tree is its block
with the placeholder after it, and that the counter of slots advances by two for
every group. Later statements about compiled code follow the recursion of the
tree and never open a join. A program holds a block where its instructions are
those of the block with distances turned into indices.
-/

namespace RegexCompiler

/-- Instructions with relative targets and without a placeholder. -/
abbrev Block := List (Inst Int)

/-- The fragment of a block, with the placeholder after it. -/
def Fragment.ofBlock (block : Block) : Fragment := ⟨(block ++ [Inst.accept]).toArray⟩

namespace Fragment

theorem empty_eq_ofBlock : empty = ofBlock [] := rfl

theorem single_eq_ofBlock (inst : Inst Int) : single inst = ofBlock [inst] := rfl

/-- The placeholder stands right after the block. -/
@[simp]
theorem hole_ofBlock (block : Block) : (ofBlock block).hole = block.length := by
  simp [hole, ofBlock]

@[simp]
theorem size_ofBlock (block : Block) : (ofBlock block).size = block.length + 1 := by
  simp [size, ofBlock]

/-- Joining fragments appends their blocks. -/
@[simp]
theorem join_ofBlock (left right : Block) :
    (ofBlock left).join (ofBlock right) = ofBlock (left ++ right) := by
  simp [join, ofBlock]

end Fragment

open Fragment (ofBlock)

/-- The block of a repeated body. -/
def Quantifier.layout (quantifier : Quantifier) (body : Block) : Block :=
  match quantifier.repetition with
  | .zeroOrMore =>
    quantifier.split 1 (body.length + 2) :: (body ++ [.jump (-(body.length + 1))])
  | .oneOrMore => body ++ [quantifier.split (-body.length) 1]
  | .zeroOrOne => quantifier.split 1 (body.length + 1) :: body

/-- The block of an alternative and of all the alternatives after it. -/
def alternateLayout (branch later : Block) : Block :=
  .split 1 (branch.length + 2) :: (branch ++ .jump (later.length + 1) :: later)

mutual

/-- Number of groups in a regex. -/
def Regex.groups : Regex → Nat
  | .single sequence => sequence.groups
  | .alternate sequence _ rest => sequence.groups + rest.groups

/-- Number of groups in a sequence. -/
def Sequence.groups : Sequence → Nat
  | .empty => 0
  | .last expr => expr.groups
  | .link expr tail => expr.groups + tail.groups

/-- Number of groups in an expression. -/
def Expr.groups : Expr → Nat
  | .mk term _ => term.groups

/-- Number of groups in a term, itself included. -/
def Term.groups : Term → Nat
  | .atom _ => 0
  | .group _ regex _ => regex.groups + 1
  | .charClass _ _ _ _ => 0

end

mutual

/-- The block of a regex with `slots` slots already taken. -/
def Regex.layout (slots : Nat) : Regex → Block
  | .single sequence => sequence.layout slots
  | .alternate sequence _ rest =>
    alternateLayout (sequence.layout slots) (rest.layout (slots + 2 * sequence.groups))

/-- The block of a sequence with `slots` slots already taken. -/
def Sequence.layout (slots : Nat) : Sequence → Block
  | .empty => []
  | .last expr => expr.layout slots
  | .link expr tail => expr.layout slots ++ tail.layout (slots + 2 * expr.groups)

/-- The block of an expression with `slots` slots already taken. -/
def Expr.layout (slots : Nat) : Expr → Block
  | .mk term none => term.layout slots
  | .mk term (some quantifier) => quantifier.layout (term.layout slots)

/-- The block of a term with `slots` slots already taken. -/
def Term.layout (slots : Nat) : Term → Block
  | .atom token => [atomInst token]
  | .group _ regex _ => .save slots :: (regex.layout (slots + 2) ++ [.save (slots + 1)])
  | .charClass _ negation members _ => [classInst negation members]

end

/-- The pieces of a repeated body join to the block of the repetition. -/
theorem Quantifier.joined_pieces (quantifier : Quantifier) (body : Block) :
    (quantifier.pieces (ofBlock body)).1.joinAll (quantifier.pieces (ofBlock body)).2 =
      ofBlock (quantifier.layout body) := by
  rw [Quantifier.pieces, Quantifier.layout]
  cases quantifier.repetition <;>
    simp [Fragment.joinAll, Fragment.single_eq_ofBlock]

/-- The pieces of a group join to its body between the two saves. -/
theorem joined_groupPieces (slot : Nat) (body : Block) :
    (groupPieces slot (ofBlock body)).1.joinAll (groupPieces slot (ofBlock body)).2 =
      ofBlock (.save slot :: (body ++ [.save (slot + 1)])) := by
  simp [groupPieces, Fragment.joinAll, Fragment.single_eq_ofBlock]

/-- The running total of an alternation starts at the length of all its code,
the placeholder included. -/
theorem alternation_total (earlier : List Block) (last : Block) (start : Nat) :
    (earlier.map ofBlock).foldl (fun sum branch => sum + branch.branchSize) start + last.length =
      start + (earlier.foldr alternateLayout last).length := by
  induction earlier generalizing start with
  | nil => rfl
  | cons branch later inductionHypothesis =>
    rw [List.map_cons, List.foldl_cons, inductionHypothesis]
    simp only [Fragment.branchSize, Fragment.hole_ofBlock, List.foldr_cons, alternateLayout,
      List.length_cons, List.length_append]
    omega

/-- The loop that lays out the alternatives. `done` is the block of what has been
laid out, and `remaining` counts the code of the alternatives to come with the
placeholder at its end, so that each jump lands exactly on that placeholder. -/
theorem joined_branchPieces (earlier : List Block) (last done : Block) (laid : List Fragment)
    (remaining : Nat) (joined : Fragment.empty.joinAll laid.reverse = ofBlock done)
    (counted : remaining = (earlier.foldr alternateLayout last).length + 1) :
    Fragment.empty.joinAll
        (ofBlock last :: branchPieces laid remaining (earlier.map ofBlock)).reverse =
      ofBlock (done ++ earlier.foldr alternateLayout last) := by
  induction earlier generalizing done laid remaining with
  | nil =>
    simp only [Fragment.joinAll] at joined
    simp [branchPieces, Fragment.joinAll, joined]
  | cons branch later inductionHypothesis =>
    simp only [List.map_cons, branchPieces]
    have beyond : remaining - (ofBlock branch).branchSize =
        (later.foldr alternateLayout last).length + 1 := by
      simp only [counted, Fragment.branchSize, Fragment.hole_ofBlock, List.foldr_cons,
        alternateLayout, List.length_cons, List.length_append]
      omega
    have extended : Fragment.empty.joinAll
        (Fragment.single (.jump ↑(remaining - (ofBlock branch).branchSize)) :: ofBlock branch ::
          Fragment.single (.split 1 (ofBlock branch).branchSize) :: laid).reverse =
        ofBlock (done ++ .split 1 (branch.length + 2) ::
          (branch ++ [.jump ((later.foldr alternateLayout last).length + 1)])) := by
      rw [beyond]
      simp only [Fragment.joinAll] at joined
      simp [Fragment.joinAll, joined, Fragment.single_eq_ofBlock, Fragment.branchSize]
    rw [inductionHypothesis _ _ _ extended beyond]
    simp [alternateLayout]

/-- The alternatives join to the block of the alternation. -/
theorem joined_alternationPieces (earlier : List Block) (last : Block) :
    (alternationPieces (earlier.map ofBlock) (ofBlock last)).1.joinAll
        (alternationPieces (earlier.map ofBlock) (ofBlock last)).2 =
      ofBlock (earlier.foldr alternateLayout last) := by
  have total := alternation_total earlier last (ofBlock last).size
  rw [Fragment.size_ofBlock] at total
  exact joined_branchPieces earlier last [] [] _ rfl (by simp only [Fragment.size_ofBlock]; omega)

mutual

/-- Compiling the alternatives yields the blocks of an alternation that lays out
the regex. -/
theorem Regex.emitBranches_eq (regex : Regex) (found : List Block) (slots : Nat) :
    ∃ earlier last,
      regex.emitBranches (found.map ofBlock) slots =
        ⟨(found.reverse ++ earlier).map ofBlock, ofBlock last, slots + 2 * regex.groups⟩ ∧
      earlier.foldr alternateLayout last = regex.layout slots := by
  cases regex with
  | single sequence =>
    refine ⟨[], sequence.layout slots, ?_, rfl⟩
    have emitted := sequence.emitAfter_eq [] slots
    rw [← Fragment.empty_eq_ofBlock] at emitted
    simp [Regex.emitBranches, emitted, Regex.groups]
  | alternate sequence pipe rest =>
    obtain ⟨earlier, last, emitted, laidOut⟩ :=
      rest.emitBranches_eq (sequence.layout slots :: found) (slots + 2 * sequence.groups)
    refine ⟨sequence.layout slots :: earlier, last, ?_, ?_⟩
    · have branch := sequence.emitAfter_eq [] slots
      rw [← Fragment.empty_eq_ofBlock] at branch
      rw [List.map_cons] at emitted
      simp only [Regex.emitBranches, branch, List.nil_append, emitted, Regex.groups,
        List.reverse_cons, List.append_assoc, List.cons_append]
      congr 1
      omega
    · rw [List.foldr_cons, laidOut, Regex.layout]

/-- Compiling a sequence appends its block to the code before it. -/
theorem Sequence.emitAfter_eq (sequence : Sequence) (before : Block) (slots : Nat) :
    sequence.emitAfter (ofBlock before) slots =
      ⟨ofBlock (before ++ sequence.layout slots), slots + 2 * sequence.groups⟩ := by
  cases sequence with
  | empty => simp [Sequence.emitAfter, Sequence.layout, Sequence.groups]
  | last expr => simp [Sequence.emitAfter, Sequence.layout, Sequence.groups, expr.emit_eq slots]
  | link expr tail =>
    simp only [Sequence.emitAfter, expr.emit_eq slots, Fragment.join_ofBlock,
      tail.emitAfter_eq, Sequence.layout, Sequence.groups, List.append_assoc]
    congr 1
    omega

/-- Compiling an expression yields its block. -/
theorem Expr.emit_eq (expr : Expr) (slots : Nat) :
    expr.emit slots = ⟨ofBlock (expr.layout slots), slots + 2 * expr.groups⟩ := by
  cases expr with
  | mk term quantifier =>
    cases quantifier with
    | none => simp [Expr.emit, Expr.layout, Expr.groups, term.emit_eq slots]
    | some quantifier =>
      simp [Expr.emit, Expr.layout, Expr.groups, term.emit_eq slots, quantifier.joined_pieces]

/-- Compiling a term yields its block. -/
theorem Term.emit_eq (term : Term) (slots : Nat) :
    term.emit slots = ⟨ofBlock (term.layout slots), slots + 2 * term.groups⟩ := by
  cases term with
  | atom token => simp [Term.emit, Term.layout, Term.groups, Fragment.single_eq_ofBlock]
  | group opening regex closing =>
    obtain ⟨earlier, last, emitted, laidOut⟩ := regex.emitBranches_eq [] (slots + 2)
    simp only [List.map_nil, List.reverse_nil, List.nil_append] at emitted
    simp only [Term.emit, emitted, EmittedBranches.joined, joined_alternationPieces, laidOut,
      joined_groupPieces, Term.layout, Term.groups]
    congr 1
    omega
  | charClass opening negation members closing =>
    simp [Term.emit, Term.layout, Term.groups, Fragment.single_eq_ofBlock]

end

/-- Compiling a regex yields its block. -/
theorem Regex.emit_eq (regex : Regex) (slots : Nat) :
    regex.emit slots = ⟨ofBlock (regex.layout slots), slots + 2 * regex.groups⟩ := by
  obtain ⟨earlier, last, emitted, laidOut⟩ := regex.emitBranches_eq [] slots
  simp only [List.map_nil, List.reverse_nil, List.nil_append] at emitted
  simp only [Regex.emit, emitted, EmittedBranches.joined, joined_alternationPieces, laidOut]

/-- The program of a tree is its block, resolved with the placeholder after it. -/
theorem Regex.program_eq (regex : Regex) :
    regex.program = (ofBlock (regex.layout 0)).resolve (2 * regex.groups) := by
  simp [Regex.program, regex.emit_eq]

/-! ### Blocks in a program -/

/-- An instruction at an index, with its distances turned into indices. -/
def Inst.placedAt (index : Nat) (inst : Inst Int) : Inst Nat :=
  inst.mapTargets fun distance => ((index : Int) + distance).toNat

/-- The instructions of a program from `base` on begin with those of the block. -/
def Program.Holds (program : Program) (base : Nat) (block : Block) : Prop :=
  ∀ offset inst, block[offset]? = some inst →
    program.insts[base + offset]? = some (inst.placedAt (base + offset))

namespace Program

/-- A program holds a block if it holds the first instruction and the rest of the
block after it. -/
theorem holds_cons (program : Program) (base : Nat) (inst : Inst Int) (block : Block) :
    program.Holds base (inst :: block) ↔
      program.insts[base]? = some (inst.placedAt base) ∧ program.Holds (base + 1) block := by
  constructor
  · intro held
    refine ⟨held 0 inst rfl, ?_⟩
    intro offset other found
    have shifted := held (offset + 1) other found
    rwa [show base + (offset + 1) = base + 1 + offset by omega] at shifted
  · rintro ⟨head, tail⟩ offset other found
    cases offset with
    | zero =>
      have same : inst = other := Option.some.inj found
      exact same ▸ head
    | succ offset =>
      have shifted := tail offset other found
      rwa [show base + 1 + offset = base + (offset + 1) by omega] at shifted

/-- A program holds two blocks in a row if it holds each where it begins. -/
theorem holds_append (program : Program) (base : Nat) (left right : Block) :
    program.Holds base (left ++ right) ↔
      program.Holds base left ∧ program.Holds (base + left.length) right := by
  induction left generalizing base with
  | nil => simp [Holds]
  | cons inst rest inductionHypothesis =>
    rw [List.cons_append, holds_cons, holds_cons, inductionHypothesis, List.length_cons,
      show base + 1 + rest.length = base + (rest.length + 1) by omega]
    exact and_assoc.symm

end Program

/-- The program of a tree has the instructions of its block and the placeholder,
and no others. -/
theorem Regex.program_getElem? (regex : Regex) (index : Nat) :
    regex.program.insts[index]? =
      (regex.layout 0 ++ [.accept])[index]?.map (Inst.placedAt index) := by
  rw [regex.program_eq]
  simp only [Fragment.resolve, ofBlock, Array.getElem?_mapIdx, List.getElem?_toArray]
  rfl

/-- The program of a tree is one instruction longer than its block. -/
theorem Regex.program_size (regex : Regex) :
    regex.program.size = (regex.layout 0).length + 1 := by
  rw [regex.program_eq]
  simp [Fragment.resolve, ofBlock, Program.size]

/-- The program of a tree holds its block and the placeholder from the start. -/
theorem Regex.program_holds (regex : Regex) :
    regex.program.Holds 0 (regex.layout 0 ++ [.accept]) := by
  intro offset inst found
  rw [Nat.zero_add, regex.program_getElem?, found, Option.map_some]

end RegexCompiler
