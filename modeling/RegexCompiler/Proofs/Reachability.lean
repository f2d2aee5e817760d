import Mathlib.Logic.Relation
import RegexCompiler.Parser
import RegexCompiler.Proofs.ControlFlow

/-!
# Reachability in compiled programs

A stretch of a program is crossed if control that enters it at the front can get to each
of its instructions, and from each of them to the instruction right behind the stretch.
Two laws put crossed stretches together: one behind the other, where the end of the first
leads to the front of the second, and side by side, where a branch leads to the front of
both and both lead to a common end. A loop that may be left from its front is an instance
of the first law, since its end leads behind the loop by way of the front.

The block of every construct is crossed wherever it stands. The whole program is one
block with the placeholder behind it, so no instruction is dead and none is a trap.
-/

namespace RegexCompiler

namespace Program

/-- Control can get from one index to another along edges of the program. Every index
reaches itself. -/
def Reaches (program : Program) (source target : Nat) : Prop :=
  Relation.ReflTransGen program.Edge source target

/-- Every index from `entry` up to `leaving` is reached from `entry` and reaches
`leaving`. -/
def Crosses (program : Program) (entry leaving : Nat) : Prop :=
  ∀ index, entry ≤ index → index ≤ leaving →
    program.Reaches entry index ∧ program.Reaches index leaving

namespace Crosses

variable {program : Program} {entry middle leaving : Nat}

/-- A stretch without instructions. -/
theorem stay (index : Nat) : program.Crosses index index := by
  intro other above below
  obtain rfl := Nat.le_antisymm below above
  exact ⟨.refl, .refl⟩

/-- A single index from where the next one is reached. -/
theorem next (reaches : program.Reaches entry (entry + 1)) :
    program.Crosses entry (entry + 1) := by
  intro index above below
  rcases Nat.eq_or_lt_of_le above with rfl | beyond
  · exact ⟨.refl, reaches⟩
  · obtain rfl : index = entry + 1 := by omega
    exact ⟨reaches, .refl⟩

/-- Stretches in a row. -/
theorem andThen (first : program.Crosses entry middle) (second : program.Crosses middle leaving)
    (forward : entry ≤ middle) (onward : middle ≤ leaving) : program.Crosses entry leaving := by
  intro index above below
  have through := (first middle forward (Nat.le_refl _)).1
  have out := (second middle (Nat.le_refl _) onward).2
  by_cases early : index ≤ middle
  · obtain ⟨into, toMiddle⟩ := first index above early
    exact ⟨into, toMiddle.trans out⟩
  · obtain ⟨fromMiddle, toEnd⟩ := second index (by omega) below
    exact ⟨through.trans fromMiddle, toEnd⟩

/-- Stretches side by side: the front of the first also leads to the front of the second,
and the end of the first leads past the second. -/
theorem beside (first : program.Crosses entry middle)
    (second : program.Crosses (middle + 1) leaving)
    (skips : program.Reaches entry (middle + 1)) (past : program.Reaches middle leaving) :
    program.Crosses entry leaving := by
  intro index above below
  by_cases early : index ≤ middle
  · obtain ⟨into, toMiddle⟩ := first index above early
    exact ⟨into, toMiddle.trans past⟩
  · obtain ⟨fromFront, toEnd⟩ := second index (by omega) below
    exact ⟨skips.trans fromFront, toEnd⟩

end Crosses

/-! ### Edges of placed instructions -/

variable (program : Program)

/-- An instruction that neither branches nor accepts leads to the next one. -/
theorem reaches_next (index : Nat) (inst : Inst Int) (busy : inst ≠ .accept)
    (plain : inst.targets = []) (fetched : program.insts[index]? = some (inst.placedAt index)) :
    program.Reaches index (index + 1) := by
  refine .single ⟨_, fetched, ?_⟩
  cases inst with
  | accept => exact absurd rfl busy
  | jump distance => simp [Inst.targets] at plain
  | split first second => simp [Inst.targets] at plain
  | char | any | oneOf | noneOf | save =>
    simp [Inst.placedAt, Inst.mapTargets, Inst.successors]

/-- A branch leads where its distances do. -/
theorem reaches_target (index target : Nat) (inst : Inst Int) (distance : Int)
    (fetched : program.insts[index]? = some (inst.placedAt index))
    (member : distance ∈ inst.targets) (lands : (index : Int) + distance = target) :
    program.Reaches index target := by
  refine .single ⟨_, fetched, ?_⟩
  have landing : ((index : Int) + distance).toNat = target := by omega
  cases inst with
  | jump other =>
    obtain rfl := List.mem_singleton.mp member
    simp [Inst.placedAt, Inst.mapTargets, Inst.successors, landing]
  | split first second =>
    simp only [Inst.targets, List.mem_cons, List.not_mem_nil, or_false] at member
    rcases member with rfl | rfl <;>
      simp [Inst.placedAt, Inst.mapTargets, Inst.successors, landing]
  | accept | char | any | oneOf | noneOf | save => simp [Inst.targets] at member

/-- The split of a quantifier leads into the body and out of it. -/
theorem reaches_quantifier (quantifier : Quantifier) (index toBody toExit : Nat)
    (body leaving : Int)
    (fetched : program.insts[index]? = some ((quantifier.split body leaving).placedAt index))
    (entersBody : (index : Int) + body = toBody) (leavesBody : (index : Int) + leaving = toExit) :
    program.Reaches index toBody ∧ program.Reaches index toExit := by
  have targets : body ∈ (quantifier.split body leaving).targets ∧
      leaving ∈ (quantifier.split body leaving).targets := by
    rcases quantifier.split_cases body leaving with same | same <;> simp [same, Inst.targets]
  exact ⟨program.reaches_target _ _ _ _ fetched targets.1 entersBody,
    program.reaches_target _ _ _ _ fetched targets.2 leavesBody⟩

/-! ### The layout of each construct -/

/-- A repetition is crossed if its body is, wherever that stands. -/
theorem crosses_quantifier (quantifier : Quantifier) (base : Nat) (body : Block)
    (placed : program.Holds base (quantifier.layout body))
    (inner : ∀ start, program.Holds start body → program.Crosses start (start + body.length)) :
    program.Crosses base (base + (quantifier.layout body).length) := by
  unfold Quantifier.layout at placed ⊢
  cases kind : quantifier.repetition with
  | zeroOrMore =>
    simp only [kind, holds_cons, holds_append] at placed ⊢
    obtain ⟨splits, held, jumps, _⟩ := placed
    obtain ⟨enters, leaves⟩ := program.reaches_quantifier quantifier base (base + 1)
      (base + 1 + body.length + 1) _ _ splits (by omega) (by omega)
    have back : program.Reaches (base + 1 + body.length) base :=
      program.reaches_target _ _ _ (-(body.length + 1)) jumps (by simp [Inst.targets]) (by omega)
    have turn := (Crosses.next enters).andThen (inner _ held) (by omega) (by omega)
    have whole := turn.andThen (.next (back.trans leaves)) (by omega) (by omega)
    simpa [Nat.add_assoc, Nat.add_comm 1] using whole
  | oneOrMore =>
    simp only [kind, holds_cons, holds_append] at placed ⊢
    obtain ⟨held, splits, _⟩ := placed
    obtain ⟨_, leaves⟩ := program.reaches_quantifier quantifier (base + body.length) base
      (base + body.length + 1) _ _ splits (by omega) (by omega)
    have whole := (inner _ held).andThen (.next leaves) (by omega) (by omega)
    simpa [Nat.add_assoc] using whole
  | zeroOrOne =>
    simp only [kind, holds_cons] at placed ⊢
    obtain ⟨splits, held⟩ := placed
    obtain ⟨enters, _⟩ := program.reaches_quantifier quantifier base (base + 1)
      (base + 1 + body.length) _ _ splits (by omega) (by omega)
    have whole := (Crosses.next enters).andThen (inner _ held) (by omega) (by omega)
    simpa [Nat.add_assoc, Nat.add_comm 1] using whole

/-- An alternative and those after it are crossed if both are, wherever they stand. -/
theorem crosses_alternate (base : Nat) (branch later : Block)
    (placed : program.Holds base (alternateLayout branch later))
    (first : ∀ start, program.Holds start branch → program.Crosses start (start + branch.length))
    (second : ∀ start, program.Holds start later → program.Crosses start (start + later.length)) :
    program.Crosses base (base + (alternateLayout branch later).length) := by
  simp only [alternateLayout, holds_cons, holds_append] at placed
  obtain ⟨splits, heldBranch, jumps, heldLater⟩ := placed
  have ends : base + (alternateLayout branch later).length =
      base + 1 + branch.length + 1 + later.length := by
    simp only [alternateLayout, List.length_cons, List.length_append]
    omega
  have enters : program.Reaches base (base + 1) :=
    program.reaches_target _ _ _ 1 splits (by simp [Inst.targets]) (by omega)
  have skips : program.Reaches base (base + 1 + branch.length + 1) :=
    program.reaches_target _ _ _ (branch.length + 2) splits (by simp [Inst.targets]) (by omega)
  have past : program.Reaches (base + 1 + branch.length)
      (base + 1 + branch.length + 1 + later.length) :=
    program.reaches_target _ _ _ (later.length + 1) jumps (by simp [Inst.targets]) (by omega)
  have taken := (Crosses.next enters).andThen (first _ heldBranch) (by omega) (by omega)
  rw [ends]
  exact taken.beside (second _ heldLater) skips past

/-- A block of one instruction that neither branches nor accepts is crossed. -/
theorem crosses_plain (base : Nat) (inst : Inst Int) (busy : inst ≠ .accept)
    (plain : inst.targets = []) (placed : program.Holds base [inst]) :
    program.Crosses base (base + 1) :=
  .next (program.reaches_next base inst busy plain ((program.holds_cons _ _ _).mp placed).1)

end Program

mutual

/-- The block of a regex is crossed wherever it stands. -/
theorem Regex.crosses (regex : Regex) (program : Program) (slots base : Nat)
    (placed : program.Holds base (regex.layout slots)) :
    program.Crosses base (base + (regex.layout slots).length) := by
  cases regex with
  | single sequence => exact sequence.crosses program slots base placed
  | alternate sequence pipe rest =>
    exact program.crosses_alternate base _ _ placed
      (fun start held => sequence.crosses program slots start held)
      (fun start held => rest.crosses program _ start held)

/-- The block of a sequence is crossed wherever it stands. -/
theorem Sequence.crosses (sequence : Sequence) (program : Program) (slots base : Nat)
    (placed : program.Holds base (sequence.layout slots)) :
    program.Crosses base (base + (sequence.layout slots).length) := by
  cases sequence with
  | empty => exact .stay base
  | last expr => exact expr.crosses program slots base placed
  | link expr tail =>
    simp only [Sequence.layout, Program.holds_append] at placed ⊢
    rw [List.length_append, ← Nat.add_assoc]
    exact (expr.crosses program slots base placed.1).andThen
      (tail.crosses program _ _ placed.2) (by omega) (by omega)

/-- The block of an expression is crossed wherever it stands. -/
theorem Expr.crosses (expr : Expr) (program : Program) (slots base : Nat)
    (placed : program.Holds base (expr.layout slots)) :
    program.Crosses base (base + (expr.layout slots).length) := by
  cases expr with
  | mk term quantifier =>
    cases quantifier with
    | none => exact term.crosses program slots base placed
    | some quantifier =>
      exact program.crosses_quantifier quantifier base _ placed
        (fun start held => term.crosses program slots start held)

/-- The block of a term is crossed wherever it stands. -/
theorem Term.crosses (term : Term) (program : Program) (slots base : Nat)
    (placed : program.Holds base (term.layout slots)) :
    program.Crosses base (base + (term.layout slots).length) := by
  cases term with
  | atom token =>
    have plain : atomInst token ≠ .accept ∧ (atomInst token).targets = [] := by
      rw [atomInst]
      split <;> simp [Inst.targets]
    exact program.crosses_plain base _ plain.1 plain.2 placed
  | group opening regex closing =>
    simp only [Term.layout] at placed ⊢
    rw [← List.singleton_append, Program.holds_append, Program.holds_append] at placed
    obtain ⟨opens, held, closes⟩ := placed
    have entered := program.crosses_plain base _ (by simp) rfl opens
    have inner := regex.crosses program (slots + 2) (base + 1) held
    have left := program.crosses_plain _ _ (by simp) rfl closes
    have whole := (entered.andThen inner (by omega) (by omega)).andThen left (by omega) (by omega)
    simpa [Nat.add_assoc, Nat.add_comm 1] using whole
  | charClass opening negation members closing =>
    have plain : classInst negation members ≠ .accept ∧
        (classInst negation members).targets = [] := by
      cases negation <;> simp [classInst, Inst.targets]
    exact program.crosses_plain base _ plain.1 plain.2 placed

end

/-- Compiled programs have neither dead code nor traps: the first instruction reaches
every instruction, and every instruction reaches the last one, which accepts. -/
theorem Regex.program_live (regex : Regex) :
    regex.program.insts[regex.program.size - 1]? = some .accept ∧
      ∀ index < regex.program.size, regex.program.Reaches 0 index ∧
        regex.program.Reaches index (regex.program.size - 1) := by
  have placed := regex.program_holds
  rw [Program.holds_append, Program.holds_cons] at placed
  obtain ⟨held, halted, _⟩ := placed
  have crossed := regex.crosses regex.program 0 0 held
  rw [regex.program_size, Nat.add_sub_cancel]
  rw [Nat.zero_add] at halted crossed
  refine ⟨halted, ?_⟩
  intro index inside
  exact crossed index (Nat.zero_le _) (by omega)

/-- A repetition of an alternation with an empty branch, inside a group. -/
theorem Regex.program_live_loop : ∃ tree, parse "(a|)*?b" = .ok tree ∧ tree.program.size = 9 ∧
    tree.program.Reaches 0 3 ∧ tree.program.Reaches 3 8 :=
  ⟨_, rfl, rfl, (Regex.program_live _).2 3 (by decide)⟩

end RegexCompiler
