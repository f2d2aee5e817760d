import RegexCompiler.Proofs.Layout

/-!
# Control flow of compiled programs

A block is closed if every branch in it lands in the block or right after it,
never on itself, and goes back only in the two ways a repetition does: a jump back
to a split, or a split that otherwise goes on. Pieces of code that are still being
joined are not closed, as they refer to pieces to come; whole constructs are, and
closedness passes from the parts of a construct to the whole. That a repeated
term is never empty keeps its split from branching to itself or twice to the same
place.

In a resolved program this bounds all targets and orders the control flow: edges
that leave no split go forward, except for a jump that lands on a split.
-/

namespace RegexCompiler

/-! ### Closed blocks -/

/-- The branches of an instruction at an offset of a block are in order. -/
structure Inst.FitsAt (whole : Block) (offset : Nat) (inst : Inst Int) : Prop where
  busy : inst ≠ .accept
  inside : ∀ distance ∈ inst.targets,
    0 ≤ (offset : Int) + distance ∧ (offset : Int) + distance ≤ whole.length
  elsewhere : ∀ distance ∈ inst.targets, distance ≠ 0
  apart : ∀ first second, inst = .split first second → first ≠ second
  backward : ∀ distance ∈ inst.targets, distance ≤ 0 →
    (inst = .jump distance ∧
      ∃ first second, whole[((offset : Int) + distance).toNat]? = some (.split first second)) ∨
    inst = .split distance 1 ∨ inst = .split 1 distance

/-- An instruction without targets fits everywhere. -/
theorem Inst.fitsAt_of_no_targets (whole : Block) (offset : Nat) (inst : Inst Int)
    (busy : inst ≠ .accept) (none : inst.targets = []) : inst.FitsAt whole offset := by
  refine ⟨busy, ?_, ?_, ?_, ?_⟩
  · simp [none]
  · simp [none]
  · rintro first second rfl
    simp [Inst.targets] at none
  · simp [none]

/-- What fits in a block still fits when code is put around the block. -/
theorem Inst.FitsAt.surrounded {block : Block} {offset : Nat} {inst : Inst Int}
    (fits : inst.FitsAt block offset) (before after : Block) :
    inst.FitsAt (before ++ (block ++ after)) (before.length + offset) := by
  refine ⟨fits.busy, ?_, fits.elsewhere, fits.apart, ?_⟩
  · intro distance member
    have bounds := fits.inside distance member
    simp only [List.length_append]
    omega
  · intro distance member back
    have bounds := fits.inside distance member
    rcases fits.backward distance member back with ⟨jumps, first, second, found⟩ | splits
    · refine .inl ⟨jumps, first, second, ?_⟩
      rw [show (((before.length + offset : Nat) : Int) + distance).toNat =
          before.length + ((offset : Int) + distance).toNat by omega,
        List.getElem?_append_right (by omega), Nat.add_sub_cancel_left,
        List.getElem?_append_left (List.getElem?_eq_some_iff.mp found).1]
      exact found
    · exact .inr splits

/-- The instructions of a part that begins at `base` fit in the whole. -/
def Block.FitsIn (whole : Block) (base : Nat) (part : Block) : Prop :=
  ∀ (offset : Nat) (inst : Inst Int), part[offset]? = some inst →
    inst.FitsAt whole (base + offset)

/-- All instructions of a block fit in it. -/
def Block.Closed (block : Block) : Prop := Block.FitsIn block 0 block

namespace Block

theorem fitsIn_nil (whole : Block) (base : Nat) : FitsIn whole base [] := by
  intro offset inst found
  simp at found

/-- A part fits if its first instruction does and the rest after it. -/
theorem fitsIn_cons {whole : Block} {base : Nat} {inst : Inst Int} {part : Block}
    (first : inst.FitsAt whole base) (others : FitsIn whole (base + 1) part) :
    FitsIn whole base (inst :: part) := by
  intro offset other found
  cases offset with
  | zero =>
    have same : inst = other := Option.some.inj found
    exact same ▸ first
  | succ offset =>
    have fits := others offset other found
    rwa [show base + 1 + offset = base + (offset + 1) by omega] at fits

/-- Parts in a row fit if each fits where it begins. -/
theorem fitsIn_append {whole : Block} {base : Nat} {left right : Block}
    (first : FitsIn whole base left) (second : FitsIn whole (base + left.length) right) :
    FitsIn whole base (left ++ right) := by
  intro offset inst found
  by_cases early : offset < left.length
  · rw [List.getElem?_append_left early] at found
    exact first offset inst found
  · rw [List.getElem?_append_right (by omega)] at found
    have fits := second (offset - left.length) inst found
    rwa [show base + left.length + (offset - left.length) = base + offset by omega] at fits

/-- A closed block fits with any code around it. -/
theorem Closed.fitsIn {block : Block} (closed : Closed block) (before after : Block) :
    FitsIn (before ++ (block ++ after)) before.length block := by
  intro offset inst found
  have fits := closed offset inst found
  rw [Nat.zero_add] at fits
  exact fits.surrounded before after

theorem closed_nil : Closed [] := fitsIn_nil [] 0

/-- A single instruction without targets is a closed block. -/
theorem closed_singleton {inst : Inst Int} (busy : inst ≠ .accept) (none : inst.targets = []) :
    Closed [inst] :=
  fitsIn_cons (inst.fitsAt_of_no_targets [inst] 0 busy none) (fitsIn_nil _ _)

/-- Closed blocks in a row are a closed block. -/
theorem Closed.append {left right : Block} (first : Closed left) (second : Closed right) :
    Closed (left ++ right) := by
  have onLeft := first.fitsIn [] right
  have onRight := second.fitsIn left []
  rw [List.append_nil] at onRight
  refine fitsIn_append onLeft ?_
  rwa [Nat.zero_add]

end Block

/-- A split to the next instruction and to another one fits if both land inside. -/
theorem Inst.split_fitsAt (whole : Block) (offset : Nat) (other : Int) (inst : Inst Int)
    (shape : inst = .split 1 other ∨ inst = .split other 1) (elsewhere : other ≠ 0)
    (apart : other ≠ 1) (nextInside : (offset : Int) + 1 ≤ whole.length)
    (otherInside : 0 ≤ (offset : Int) + other ∧ (offset : Int) + other ≤ whole.length) :
    inst.FitsAt whole offset := by
  have targets : ∀ distance ∈ inst.targets, distance = 1 ∨ distance = other := by
    rcases shape with rfl | rfl
    · simp [Inst.targets]
    · simp [Inst.targets]
  refine ⟨?_, ?_, ?_, ?_, ?_⟩
  · rcases shape with rfl | rfl <;> simp
  · intro distance member
    rcases targets distance member with rfl | rfl <;> omega
  · intro distance member
    rcases targets distance member with rfl | rfl <;> omega
  · intro first second same
    rcases shape with rfl | rfl <;> cases same <;> omega
  · intro distance member back
    rcases targets distance member with rfl | rfl
    · omega
    · exact .inr shape.symm

/-- A jump to another instruction inside fits if it goes forward, or back to a
split. -/
theorem Inst.jump_fitsAt (whole : Block) (offset : Nat) (distance : Int)
    (inside : 0 ≤ (offset : Int) + distance ∧ (offset : Int) + distance ≤ whole.length)
    (elsewhere : distance ≠ 0)
    (back : distance ≤ 0 →
      ∃ first second, whole[((offset : Int) + distance).toNat]? = some (.split first second)) :
    (Inst.jump distance).FitsAt whole offset := by
  refine ⟨by simp, ?_, ?_, by simp, ?_⟩
  · simpa [Inst.targets] using inside
  · simpa [Inst.targets] using elsewhere
  · intro target member backward
    obtain rfl : target = distance := by simpa [Inst.targets] using member
    exact .inl ⟨rfl, back backward⟩

/-- A quantifier's split is a split of its two distances, in one order or the
other. -/
theorem Quantifier.split_cases (quantifier : Quantifier) (body leaving : Int) :
    quantifier.split body leaving = .split body leaving ∨
      quantifier.split body leaving = .split leaving body := by
  rw [Quantifier.split]
  split
  · exact .inl rfl
  · exact .inr rfl

/-- A term is compiled to at least one instruction. -/
theorem Term.layout_length_pos (term : Term) (slots : Nat) : 0 < (term.layout slots).length := by
  cases term <;> simp [Term.layout]

/-- A repetition of a closed body that is not empty is closed. -/
theorem Quantifier.layout_closed (quantifier : Quantifier) (body : Block)
    (closed : Block.Closed body) (filled : 0 < body.length) :
    Block.Closed (quantifier.layout body) := by
  rw [Quantifier.layout, Block.Closed]
  cases quantifier.repetition with
  | zeroOrMore =>
    refine Block.fitsIn_cons ?_
      (Block.fitsIn_append ?_ (Block.fitsIn_cons ?_ (Block.fitsIn_nil _ _)))
    · refine Inst.split_fitsAt _ _ (body.length + 2) _ (quantifier.split_cases _ _)
        (by omega) (by omega) ?_ ?_ <;>
        simp only [List.length_cons, List.length_append, List.length_nil] <;> omega
    · exact closed.fitsIn [_] [_]
    · refine Inst.jump_fitsAt _ _ _ ?_ (by omega) ?_
      · simp only [List.length_cons, List.length_append, List.length_nil]
        omega
      · intro _
        rw [show (((0 + 1 + body.length : Nat) : Int) + -(body.length + 1)).toNat = 0 by omega]
        rcases quantifier.split_cases 1 (body.length + 2) with same | same
        · exact ⟨_, _, congrArg some same⟩
        · exact ⟨_, _, congrArg some same⟩
  | oneOrMore =>
    refine Block.fitsIn_append ?_ (Block.fitsIn_cons ?_ (Block.fitsIn_nil _ _))
    · exact closed.fitsIn [] [_]
    · refine Inst.split_fitsAt _ _ (-body.length) _ (quantifier.split_cases _ _).symm
        (by omega) (by omega) ?_ ?_ <;>
        simp only [List.length_cons, List.length_append, List.length_nil] <;> omega
  | zeroOrOne =>
    refine Block.fitsIn_cons ?_ ?_
    · refine Inst.split_fitsAt _ _ (body.length + 1) _ (quantifier.split_cases _ _)
        (by omega) (by omega) ?_ ?_ <;> simp only [List.length_cons] <;> omega
    · have fits := closed.fitsIn [quantifier.split 1 (body.length + 1)] []
      rwa [List.append_nil] at fits

/-- Closed alternatives make a closed alternation. Its branches all go forward. -/
theorem alternateLayout_closed (branch later : Block) (first : Block.Closed branch)
    (second : Block.Closed later) : Block.Closed (alternateLayout branch later) := by
  rw [alternateLayout, Block.Closed]
  refine Block.fitsIn_cons ?_ (Block.fitsIn_append ?_ (Block.fitsIn_cons ?_ ?_))
  · refine Inst.split_fitsAt _ _ (branch.length + 2) _ (.inl rfl) (by omega) (by omega) ?_ ?_ <;>
      simp only [List.length_cons, List.length_append] <;> omega
  · exact first.fitsIn [_] (_ :: later)
  · refine Inst.jump_fitsAt _ _ _ ?_ (by omega) (by omega)
    simp only [List.length_cons, List.length_append]
    omega
  · have fits :=
      second.fitsIn (.split 1 (branch.length + 2) :: (branch ++ [.jump (later.length + 1)])) []
    simpa [Nat.add_comm, Nat.add_left_comm] using fits

mutual

/-- The block of a regex is closed. -/
theorem Regex.layout_closed (regex : Regex) (slots : Nat) : Block.Closed (regex.layout slots) := by
  cases regex with
  | single sequence => exact sequence.layout_closed slots
  | alternate sequence pipe rest =>
    exact alternateLayout_closed _ _ (sequence.layout_closed _) (rest.layout_closed _)

/-- The block of a sequence is closed. -/
theorem Sequence.layout_closed (sequence : Sequence) (slots : Nat) :
    Block.Closed (sequence.layout slots) := by
  cases sequence with
  | empty => exact Block.closed_nil
  | last expr => exact expr.layout_closed slots
  | link expr tail => exact (expr.layout_closed slots).append (tail.layout_closed _)

/-- The block of an expression is closed. -/
theorem Expr.layout_closed (expr : Expr) (slots : Nat) : Block.Closed (expr.layout slots) := by
  cases expr with
  | mk term quantifier =>
    cases quantifier with
    | none => exact term.layout_closed slots
    | some quantifier =>
      exact quantifier.layout_closed _ (term.layout_closed slots) (term.layout_length_pos slots)

/-- The block of a term is closed. -/
theorem Term.layout_closed (term : Term) (slots : Nat) : Block.Closed (term.layout slots) := by
  cases term with
  | atom token =>
    have plain : atomInst token = .any ∨ atomInst token = .char token.char := by
      rw [atomInst]
      split
      · exact .inl rfl
      · exact .inr rfl
    exact Block.closed_singleton (by rcases plain with same | same <;> simp [same])
      (by rcases plain with same | same <;> simp [same, Inst.targets])
  | group opening regex closing =>
    have body := regex.layout_closed (slots + 2)
    have saved (slot : Nat) : Block.Closed [.save slot] :=
      Block.closed_singleton (by simp) rfl
    exact (saved slots).append (body.append (saved (slots + 1)))
  | charClass opening negation members closing =>
    exact Block.closed_singleton (by cases negation <;> simp [classInst])
      (by cases negation <;> simp [classInst, Inst.targets])

end

/-! ### Well-formed programs -/

/-- What is invariant about the instructions of a program: its last instruction
accepts and no other does, its branches lead to other instructions of the program,
a split has two different targets, and a branch that does not go forward is a jump
to a split or a split that otherwise goes on to the next instruction. -/
structure Program.WellFormed (program : Program) : Prop where
  nonempty : 0 < program.size
  accepts_iff_last : ∀ index : Nat,
    program.insts[index]? = some .accept ↔ index + 1 = program.size
  inside : ∀ (index : Nat) (inst : Inst Nat), program.insts[index]? = some inst →
    ∀ target ∈ inst.targets, target < program.size
  elsewhere : ∀ (index : Nat) (inst : Inst Nat), program.insts[index]? = some inst →
    ∀ target ∈ inst.targets, target ≠ index
  apart : ∀ index first second : Nat, program.insts[index]? = some (.split first second) →
    first ≠ second
  backward : ∀ (index : Nat) (inst : Inst Nat), program.insts[index]? = some inst →
    ∀ target ∈ inst.targets, target ≤ index →
      (inst = .jump target ∧
        ∃ first second : Nat, program.insts[target]? = some (.split first second)) ∨
      inst = .split target (index + 1) ∨ inst = .split (index + 1) target

/-- Placing an instruction turns its distances into indices one by one. -/
theorem Inst.targets_placedAt (index : Nat) (inst : Inst Int) :
    (inst.placedAt index).targets =
      inst.targets.map fun distance => ((index : Int) + distance).toNat := by
  cases inst <;> rfl

/-- Placing keeps instructions that accept apart from all others. -/
theorem Inst.placedAt_eq_accept (index : Nat) (inst : Inst Int) :
    inst.placedAt index = .accept ↔ inst = .accept := by
  cases inst <;> simp [Inst.placedAt, Inst.mapTargets]

/-- Only a split is placed as a split, with both distances turned into indices. -/
theorem Inst.placedAt_eq_split (index first second : Nat) (inst : Inst Int)
    (placed : inst.placedAt index = .split first second) :
    ∃ left right, inst = .split left right ∧ first = ((index : Int) + left).toNat ∧
      second = ((index : Int) + right).toNat := by
  cases inst with
  | split left right =>
    simp only [Inst.placedAt, Inst.mapTargets, Inst.split.injEq] at placed
    exact ⟨left, right, rfl, placed.1.symm, placed.2.symm⟩
  | accept | char | any | oneOf | noneOf | save | jump =>
    simp [Inst.placedAt, Inst.mapTargets] at placed

/-- An instruction of the program is the placeholder at the end, or comes from an
instruction that fits in the block of the tree. -/
theorem Regex.program_inst_cases (regex : Regex) (index : Nat) (inst : Inst Nat)
    (fetched : regex.program.insts[index]? = some inst) :
    (inst = .accept ∧ index = (regex.layout 0).length) ∨
      ∃ source, (regex.layout 0)[index]? = some source ∧
        source.FitsAt (regex.layout 0) index ∧ inst = source.placedAt index := by
  rw [regex.program_getElem?] at fetched
  by_cases early : index < (regex.layout 0).length
  · rw [List.getElem?_append_left early] at fetched
    obtain ⟨source, found, rfl⟩ := Option.map_eq_some_iff.mp fetched
    have fits := regex.layout_closed 0 index source found
    rw [Nat.zero_add] at fits
    exact .inr ⟨source, found, fits, rfl⟩
  · rw [List.getElem?_append_right (by omega)] at fetched
    obtain ⟨source, found, rfl⟩ := Option.map_eq_some_iff.mp fetched
    rw [List.getElem?_singleton] at found
    split at found
    · obtain rfl := Option.some.inj found
      exact .inl ⟨rfl, by omega⟩
    · simp at found

/-- Every target in the program of a tree is where a distance of the block leads from
an instruction that fits there. -/
theorem Regex.program_target_cases (regex : Regex) (index : Nat) (inst : Inst Nat)
    (fetched : regex.program.insts[index]? = some inst) (target : Nat)
    (member : target ∈ inst.targets) :
    ∃ (source : Inst Int) (distance : Int), source.FitsAt (regex.layout 0) index ∧
      inst = source.placedAt index ∧ distance ∈ source.targets ∧
      target = ((index : Int) + distance).toNat := by
  rcases regex.program_inst_cases index inst fetched with ⟨rfl, _⟩ | ⟨source, _, fits, rfl⟩
  · simp [Inst.targets] at member
  · rw [Inst.targets_placedAt] at member
    obtain ⟨distance, held, rfl⟩ := List.mem_map.mp member
    exact ⟨source, distance, fits, rfl, held, rfl⟩

/-- An instruction of the block stands in the program, with its distances turned
into indices. -/
theorem Regex.program_of_layout (regex : Regex) (index : Nat) (inst : Inst Int)
    (found : (regex.layout 0)[index]? = some inst) :
    regex.program.insts[index]? = some (inst.placedAt index) := by
  rw [regex.program_getElem?, List.getElem?_append_left (List.getElem?_eq_some_iff.mp found).1,
    found, Option.map_some]

/-- The program of every tree is well-formed. -/
theorem Regex.program_wellFormed (regex : Regex) : regex.program.WellFormed where
  nonempty := by
    rw [regex.program_size]
    omega
  accepts_iff_last := by
    intro index
    rw [regex.program_size]
    constructor
    · intro fetched
      rcases regex.program_inst_cases index _ fetched with ⟨_, atEnd⟩ | ⟨source, _, fits, same⟩
      · omega
      · exact absurd ((Inst.placedAt_eq_accept index source).mp same.symm) fits.busy
    · intro atEnd
      obtain rfl : index = (regex.layout 0).length := by omega
      rw [regex.program_getElem?, List.getElem?_append_right (Nat.le_refl _), Nat.sub_self]
      rfl
  inside := by
    intro index inst fetched target member
    obtain ⟨source, distance, fits, rfl, held, rfl⟩ :=
      regex.program_target_cases index inst fetched target member
    have bounds := fits.inside distance held
    rw [regex.program_size]
    omega
  elsewhere := by
    intro index inst fetched target member
    obtain ⟨source, distance, fits, rfl, held, rfl⟩ :=
      regex.program_target_cases index inst fetched target member
    have bounds := fits.inside distance held
    have moves := fits.elsewhere distance held
    omega
  apart := by
    intro index first second fetched
    rcases regex.program_inst_cases index _ fetched with ⟨same, _⟩ | ⟨source, _, fits, same⟩
    · simp at same
    · obtain ⟨left, right, rfl, rfl, rfl⟩ :=
        Inst.placedAt_eq_split index first second source same.symm
      have onLeft := fits.inside left (by simp [Inst.targets])
      have onRight := fits.inside right (by simp [Inst.targets])
      have differ := fits.apart left right rfl
      omega
  backward := by
    intro index inst fetched target member back
    obtain ⟨source, distance, fits, rfl, held, rfl⟩ :=
      regex.program_target_cases index inst fetched target member
    have bounds := fits.inside distance held
    have onward : ((index : Int) + 1).toNat = index + 1 := by omega
    rcases fits.backward distance held (by omega) with ⟨rfl, first, second, found⟩ | rfl | rfl
    · exact .inl ⟨rfl, _, _, regex.program_of_layout _ _ found⟩
    · exact .inr (.inl (by simp [Inst.placedAt, Inst.mapTargets, onward]))
    · exact .inr (.inr (by simp [Inst.placedAt, Inst.mapTargets, onward]))

/-! ### Edges and cycles -/

/-- Indices where an instruction at `index` may lead. -/
def Inst.successors (index : Nat) : Inst Nat → List Nat
  | .accept => []
  | .jump target => [target]
  | .split first second => [first, second]
  | _ => [index + 1]

/-- An edge of the control flow: the instruction at `source` may lead to `target`. -/
def Program.Edge (program : Program) (source target : Nat) : Prop :=
  ∃ inst, program.insts[source]? = some inst ∧ target ∈ inst.successors source

/-- A split stands at this index. -/
def Program.SplitAt (program : Program) (index : Nat) : Prop :=
  ∃ first second, program.insts[index]? = some (.split first second)

namespace Program

variable {program : Program}

/-- All branch targets of a well-formed program are indices of its instructions. -/
theorem WellFormed.targets_lt (wellFormed : program.WellFormed) :
    ∀ target ∈ program.targets, target < program.size := by
  intro target present
  obtain ⟨inst, member, branches⟩ := List.mem_flatMap.mp present
  obtain ⟨index, found⟩ := List.mem_iff_getElem?.mp member
  rw [Array.getElem?_toList] at found
  exact wellFormed.inside index inst found target branches

/-- In a well-formed program an edge between instructions that are not splits goes
forward. -/
theorem WellFormed.edge_forward (wellFormed : program.WellFormed) {source target : Nat}
    (edge : program.Edge source target) (fromPlain : ¬ program.SplitAt source)
    (toPlain : ¬ program.SplitAt target) : source < target := by
  obtain ⟨inst, fetched, leads⟩ := edge
  cases inst with
  | accept => simp [Inst.successors] at leads
  | split first second => exact absurd ⟨first, second, fetched⟩ fromPlain
  | jump destination =>
    obtain rfl : target = destination := by simpa [Inst.successors] using leads
    apply Nat.lt_of_not_le
    intro behind
    rcases wellFormed.backward source _ fetched target (by simp [Inst.targets]) behind with
      ⟨_, first, second, found⟩ | splits | splits
    · exact toPlain ⟨first, second, found⟩
    · simp at splits
    · simp at splits
  | char | any | oneOf | noneOf | save =>
    obtain rfl : target = source + 1 := by simpa [Inst.successors] using leads
    exact Nat.lt_succ_self source

/-- A walk that leaves no split begins off the splits and, unless it ends on one,
goes forward. -/
theorem WellFormed.walk_forward (wellFormed : program.WellFormed) {source target : Nat}
    (walk : Relation.TransGen
      (fun before after => program.Edge before after ∧ ¬ program.SplitAt before) source target) :
    ¬ program.SplitAt source ∧ (¬ program.SplitAt target → source < target) := by
  induction walk with
  | single step => exact ⟨step.2, wellFormed.edge_forward step.1 step.2⟩
  | tail _ step inductionHypothesis =>
    refine ⟨inductionHypothesis.1, ?_⟩
    intro toPlain
    exact Nat.lt_trans (inductionHypothesis.2 step.2)
      (wellFormed.edge_forward step.1 step.2 toPlain)

/-- A sequence of jumps, each to the next, goes forward after every step. -/
theorem WellFormed.jumps_forward (wellFormed : program.WellFormed) (visited : Nat → Nat)
    (jumps : ∀ n, program.insts[visited n]? = some (.jump (visited (n + 1)))) (n : Nat) :
    visited 0 + n ≤ visited n := by
  have plain : ∀ n, ¬ program.SplitAt (visited n) := by
    rintro n ⟨first, second, found⟩
    have same := Option.some.inj ((jumps n).symm.trans found)
    simp at same
  induction n with
  | zero => exact Nat.le_refl _
  | succ n inductionHypothesis =>
    have edge : program.Edge (visited n) (visited (n + 1)) :=
      ⟨_, jumps n, by simp [Inst.successors]⟩
    have forward := wellFormed.edge_forward edge (plain n) (plain (n + 1))
    omega

end Program

/-- The invariant of compiled programs and what it means for their control flow:
no cycle avoids the splits, and no run goes on forever by jumps alone. -/
theorem Regex.program_controlFlow (regex : Regex) :
    regex.program.WellFormed ∧
      (∀ index, ¬ Relation.TransGen (fun before after =>
        regex.program.Edge before after ∧ ¬ regex.program.SplitAt before) index index) ∧
      ∀ visited : Nat → Nat,
        ¬ ∀ n, regex.program.insts[visited n]? = some (.jump (visited (n + 1))) := by
  have wellFormed := regex.program_wellFormed
  refine ⟨wellFormed, ?_, ?_⟩
  · intro index cycle
    obtain ⟨plain, forward⟩ := wellFormed.walk_forward cycle
    exact Nat.lt_irrefl index (forward plain)
  · intro visited jumps
    have far := wellFormed.jumps_forward visited jumps (regex.program.size + 1)
    have near := wellFormed.inside _ _ (jumps regex.program.size)
      (visited (regex.program.size + 1)) (by simp [Inst.targets])
    omega

end RegexCompiler
