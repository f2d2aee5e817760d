import RegexCompiler.Proofs.Lexemes
import RegexCompiler.Proofs.Relocation
import RegexCompiler.Proofs.Unambiguity

/-!
# The size of a program

Every node of a tree adds a few instructions to those of its parts: an atom and a class one
that consumes a character, a group two that save its bounds, a repetition its split and, if
it is a `*`, a jump, and a `|` a split and a jump. Apart from their order, the instructions of
a program are those that the nodes of its tree add, and one that accepts.

The tokens of a tree are in the same way those of its nodes. As a node of the grammar adds at
most two instructions for each of its tokens, a program is at most twice as long as its
pattern, and one. What holds of a single node is added up over a list of nodes, and the trees
are only needed to see that nothing is added or lost on the way.
-/

namespace RegexCompiler

/-! ### Instructions by what they do -/

/-- What an instruction does, whatever its operands. -/
inductive Opcode where
  | accept
  | consume
  | save
  | jump
  | split
  deriving DecidableEq

/-- What an instruction does. -/
def Inst.opcode {τ : Type} : Inst τ → Opcode
  | .accept => .accept
  | .char _ | .any | .oneOf _ | .noneOf _ => .consume
  | .save _ => .save
  | .jump _ => .jump
  | .split _ _ => .split

/-- Number of instructions of a program that do the same. -/
def Program.count (program : Program) (opcode : Opcode) : Nat :=
  (program.insts.toList.map Inst.opcode).count opcode

/-- What an instruction does is independent of its targets. -/
@[simp]
theorem Inst.opcode_mapTargets {τ υ : Type} (f : τ → υ) (inst : Inst τ) :
    (inst.mapTargets f).opcode = inst.opcode := by
  cases inst <;> rfl

/-- A resolved block does what the block does. -/
theorem Block.map_opcode_resolved (start : Nat) (block : Block) :
    (Block.resolved start block).map Inst.opcode = block.map Inst.opcode := by
  induction block generalizing start with
  | nil => rfl
  | cons inst others inductionHypothesis =>
    simp [Block.resolved_cons, inductionHypothesis, Inst.placedAt]

/-! ### What a node adds -/

/-- What a node is in the grammar. A node that only holds its parts together is plain. -/
inductive Role where
  | plain
  | alternation
  | repetition (way : Repetition)
  | atom
  | group
  | charClass
  deriving DecidableEq

/-- The instructions that a node in a role adds to those of its parts. -/
def Role.opcodes : Role → List Opcode
  | .plain => []
  | .alternation | .repetition .zeroOrMore => [.split, .jump]
  | .repetition .oneOrMore | .repetition .zeroOrOne => [.split]
  | .atom | .charClass => [.consume]
  | .group => [.save, .save]

/-- Whether a node in a role repeats its term. -/
def Role.isRepetition : Role → Bool
  | .repetition _ => true
  | _ => false

namespace Subtree

/-- The role of a node. -/
def role : Subtree → Role
  | .regex (.alternate _ _ _) => .alternation
  | .expr (.mk _ (some quantifier)) => .repetition quantifier.repetition
  | .term (.atom _) => .atom
  | .term (.group _ _ _) => .group
  | .term (.charClass _ _ _ _) => .charClass
  | _ => .plain

/-- The instructions that a node adds to those of its parts. -/
def opcodes (node : Subtree) : List Opcode := node.role.opcodes

/-- The tokens that a node adds to those of its parts. -/
def ownTokens : Subtree → List Token
  | .regex (.alternate _ pipe _) => [pipe]
  | .expr (.mk _ (some quantifier)) => quantifier.tokens
  | .term (.atom token) => [token]
  | .term (.group opening _ closing) => [opening, closing]
  | .term (.charClass opening negation members closing) =>
    (Term.charClass opening negation members closing).tokens
  | _ => []

/-- The tokens at a node and below it have the kinds the grammar asks for. -/
def Conforms (nesting : Nat) : Subtree → Prop
  | .regex tree => tree.Conforms nesting
  | .sequence tree => tree.Conforms nesting
  | .expr tree => tree.Conforms nesting
  | .term tree => tree.Conforms nesting

end Subtree

/-- The roles of all nodes of a regex, however deep. -/
def Regex.roles (regex : Regex) : List Role := regex.preorder.map Subtree.role

/-- Number of tokens that are a `|`. -/
def countPipes (tokens : List Token) : Nat := (tokens.map Token.kind).count .pipe

theorem countPipes_append (left right : List Token) :
    countPipes (left ++ right) = countPipes left + countPipes right := by
  simp [countPipes]

/-! ### Trees and their nodes -/

/-- A repetition adds its instructions to those of its body. -/
theorem Quantifier.opcodes_perm (quantifier : Quantifier) (body : Block) :
    ((quantifier.layout body).map Inst.opcode).Perm
      ((Role.repetition quantifier.repetition).opcodes ++ body.map Inst.opcode) := by
  have branch (first second : Int) : (quantifier.split first second).opcode = .split := by
    rcases quantifier.split_cases first second with same | same <;> rw [same] <;> rfl
  have leap (distance : Int) : (Inst.jump distance).opcode = .jump := rfl
  rw [Quantifier.layout]
  cases quantifier.repetition with
  | zeroOrMore => simp [Role.opcodes, branch, leap, List.perm_append_singleton]
  | oneOrMore => simp [Role.opcodes, branch, List.perm_append_singleton]
  | zeroOrOne => simp [Role.opcodes, branch]

mutual

/-- The instructions of a regex are those that its nodes add. -/
theorem Regex.opcodes_perm (regex : Regex) (slots : Nat) :
    ((regex.layout slots).map Inst.opcode).Perm (regex.preorder.flatMap Subtree.opcodes) := by
  cases regex with
  | single sequence => exact sequence.opcodes_perm slots
  | alternate sequence pipe rest =>
    have parts := (sequence.opcodes_perm slots).append
      (rest.opcodes_perm (slots + 2 * sequence.groups))
    have around := (List.perm_middle (a := Opcode.jump)).trans (parts.cons Opcode.jump)
    simpa [Regex.layout, alternateLayout, Regex.preorder, Subtree.opcodes, Subtree.role,
      Role.opcodes, Inst.opcode] using
      around.cons Opcode.split

/-- The instructions of a sequence are those that its nodes add. -/
theorem Sequence.opcodes_perm (sequence : Sequence) (slots : Nat) :
    ((sequence.layout slots).map Inst.opcode).Perm
      (sequence.preorder.flatMap Subtree.opcodes) := by
  cases sequence with
  | empty => exact .nil
  | last expr => exact expr.opcodes_perm slots
  | link expr tail =>
    simpa [Sequence.layout, Sequence.preorder, Subtree.opcodes, Subtree.role, Role.opcodes] using
      (expr.opcodes_perm slots).append (tail.opcodes_perm (slots + 2 * expr.groups))

/-- The instructions of an expression are those that its nodes add. -/
theorem Expr.opcodes_perm (expr : Expr) (slots : Nat) :
    ((expr.layout slots).map Inst.opcode).Perm (expr.preorder.flatMap Subtree.opcodes) := by
  cases expr with
  | mk term quantifier =>
    cases quantifier with
    | none => exact term.opcodes_perm slots
    | some quantifier =>
      exact (quantifier.opcodes_perm _).trans ((term.opcodes_perm slots).append_left _)

/-- The instructions of a term are those that its nodes add. -/
theorem Term.opcodes_perm (term : Term) (slots : Nat) :
    ((term.layout slots).map Inst.opcode).Perm (term.preorder.flatMap Subtree.opcodes) := by
  cases term with
  | atom token =>
    rw [Term.layout, atomInst]
    cases token.kind <;> exact .refl _
  | group opening regex closing =>
    have around := (List.perm_append_singleton Opcode.save _).trans
      ((regex.opcodes_perm (slots + 2)).cons Opcode.save)
    simpa [Term.layout, Term.preorder, Subtree.opcodes, Subtree.role,
      Role.opcodes, Inst.opcode] using
      around.cons Opcode.save
  | charClass opening negation members closing => cases negation <;> exact .refl _

end

mutual

/-- The tokens of a regex are those that its nodes add. -/
theorem Regex.tokens_perm (regex : Regex) :
    regex.tokens.Perm (regex.preorder.flatMap Subtree.ownTokens) := by
  cases regex with
  | single sequence => exact sequence.tokens_perm
  | alternate sequence pipe rest =>
    have parts := sequence.tokens_perm.append rest.tokens_perm
    simpa [Regex.tokens, Regex.preorder, Subtree.ownTokens] using
      (List.perm_middle (a := pipe)).trans (parts.cons pipe)

/-- The tokens of a sequence are those that its nodes add. -/
theorem Sequence.tokens_perm (sequence : Sequence) :
    sequence.tokens.Perm (sequence.preorder.flatMap Subtree.ownTokens) := by
  cases sequence with
  | empty => exact .nil
  | last expr => exact expr.tokens_perm
  | link expr tail =>
    simpa [Sequence.tokens, Sequence.preorder, Subtree.ownTokens] using
      expr.tokens_perm.append tail.tokens_perm

/-- The tokens of an expression are those that its nodes add. -/
theorem Expr.tokens_perm (expr : Expr) :
    expr.tokens.Perm (expr.preorder.flatMap Subtree.ownTokens) := by
  cases expr with
  | mk term quantifier =>
    cases quantifier with
    | none => exact term.tokens_perm
    | some quantifier => exact List.perm_append_comm.trans (term.tokens_perm.append_left _)

/-- The tokens of a term are those that its nodes add. -/
theorem Term.tokens_perm (term : Term) :
    term.tokens.Perm (term.preorder.flatMap Subtree.ownTokens) := by
  cases term with
  | atom token => exact .refl _
  | group opening regex closing =>
    have around := (List.perm_append_singleton closing _).trans (regex.tokens_perm.cons closing)
    simpa [Term.tokens, Term.preorder, Subtree.ownTokens] using around.cons opening
  | charClass opening negation members closing =>
    simp [Term.preorder, Subtree.ownTokens]

end

/-- What is below a conforming node conforms, the body of a group with fewer levels to spare. -/
theorem Subtree.inherited_conforms :
    Subtree.Inherited fun node => ∃ nesting, node.Conforms nesting where
  single := fun ⟨nesting, conforms⟩ => ⟨nesting, conforms⟩
  alternate := fun ⟨nesting, first, _, later⟩ => ⟨⟨nesting, first⟩, ⟨nesting, later⟩⟩
  last := fun ⟨nesting, conforms⟩ => ⟨nesting, conforms⟩
  link := fun ⟨nesting, first, later⟩ => ⟨⟨nesting, first⟩, ⟨nesting, later⟩⟩
  term := fun ⟨nesting, conforms, _⟩ => ⟨nesting, conforms⟩
  group := fun ⟨_, _, _, fewer, _, body⟩ => ⟨fewer, body⟩

/-- All nodes of a conforming regex conform. -/
theorem Regex.Conforms.nodes {nesting : Nat} {regex : Regex} (conforms : regex.Conforms nesting) :
    ∀ node ∈ regex.preorder, ∃ within, node.Conforms within :=
  Subtree.inherited_conforms.regex_nodes regex ⟨nesting, conforms⟩

/-! ### Counting nodes -/

/-- How many instructions nodes in some roles add, by what they do and in all. -/
structure Tally (roles : List Role) : Prop where
  splits : (roles.flatMap Role.opcodes).count .split =
    roles.countP Role.isRepetition + roles.count .alternation
  jumps : (roles.flatMap Role.opcodes).count .jump =
    roles.count (.repetition .zeroOrMore) + roles.count .alternation
  saves : (roles.flatMap Role.opcodes).count .save = 2 * roles.count .group
  all : (roles.flatMap Role.opcodes).length =
    roles.count .atom + roles.count .charClass + 2 * roles.count .group +
      2 * roles.count (.repetition .zeroOrMore) + roles.count (.repetition .oneOrMore) +
      roles.count (.repetition .zeroOrOne) + 2 * roles.count .alternation

/-- A single node adds the instructions of its role. -/
theorem tally_singleton (role : Role) : Tally [role] := by
  rcases role with _ | _ | (_ | _ | _) | _ | _ | _ <;> constructor <;> decide

/-- Nodes in a row add what each of them adds. -/
theorem Tally.append {left right : List Role} (first : Tally left) (second : Tally right) :
    Tally (left ++ right) := by
  obtain ⟨splits, jumps, saves, all⟩ := first
  obtain ⟨splits', jumps', saves', all'⟩ := second
  constructor <;>
    simp only [List.flatMap_append, List.count_append, List.countP_append, List.length_append] <;>
    omega

/-- Any nodes add the instructions of their roles. -/
theorem tally (roles : List Role) : Tally roles := by
  induction roles with
  | nil => exact ⟨rfl, rfl, rfl, rfl⟩
  | cons role others inductionHypothesis => exact (tally_singleton role).append inductionHypothesis

/-- There is no `|` among tokens of other kinds. -/
theorem countPipes_eq_zero {tokens : List Token} (others : ∀ token ∈ tokens, token.kind ≠ .pipe) :
    countPipes tokens = 0 := by
  rw [countPipes, List.count_eq_zero, List.mem_map]
  rintro ⟨token, present, isPipe⟩
  exact others token present isPipe

/-- Only an alternation has a `|` of its own. -/
theorem Subtree.Conforms.countPipes_ownTokens {nesting : Nat} {node : Subtree}
    (conforms : node.Conforms nesting) :
    countPipes node.ownTokens = if node.role = .alternation then 1 else 0 := by
  match node with
  | .regex (.single _) | .sequence _ | .expr (.mk _ none) => rfl
  | .regex (.alternate _ pipe _) =>
    have isPipe : pipe.kind = .pipe := conforms.2.1
    simp [ownTokens, role, countPipes, isPipe]
  | .expr (.mk _ (some quantifier)) =>
    obtain ⟨agrees, marks⟩ := conforms.2 quantifier rfl
    refine countPipes_eq_zero (List.forall_mem_cons.mpr ⟨?_, fun mark present => ?_⟩)
    · rw [agrees]
      cases quantifier.repetition <;> decide
    · rw [marks mark (by simpa using present)]
      decide
  | .term (.atom token) =>
    refine countPipes_eq_zero (List.forall_mem_singleton.mpr ?_)
    rcases conforms with kind | kind | kind <;> simp [kind]
  | .term (.group opening _ closing) =>
    obtain ⟨opens, closes, _⟩ := conforms
    exact countPipes_eq_zero (by simp [ownTokens, opens, closes])
  | .term (.charClass opening negation members closing) =>
    obtain ⟨opens, closes, carets, conform⟩ := conforms
    refine countPipes_eq_zero fun token present => ?_
    simp only [ownTokens, Term.tokens, List.mem_cons, List.mem_append, Option.mem_toList,
      List.not_mem_nil, or_false] at present
    rcases present with rfl | marks | inside | rfl
    · simp [opens]
    · simp [carets token marks]
    · rcases members.isMember_of_mem_tokens conform inside with kind | kind <;> simp [kind]
    · simp [closes]

/-- The `|` that conforming nodes have of their own are those of the alternations. -/
theorem countPipes_flatMap {nodes : List Subtree}
    (conform : ∀ node ∈ nodes, ∃ nesting, node.Conforms nesting) :
    countPipes (nodes.flatMap Subtree.ownTokens) = (nodes.map Subtree.role).count .alternation := by
  induction nodes with
  | nil => rfl
  | cons node others inductionHypothesis =>
    obtain ⟨⟨nesting, first⟩, later⟩ := List.forall_mem_cons.mp conform
    rw [List.flatMap_cons, countPipes_append, first.countPipes_ownTokens,
      inductionHypothesis later, List.map_cons, List.count_cons, Nat.add_comm]
    simp only [beq_iff_eq]

/-- A node adds at most two instructions for each of its tokens. -/
theorem Subtree.length_opcodes_le (node : Subtree) :
    node.opcodes.length ≤ 2 * node.ownTokens.length := by
  have short : node.role.opcodes.length ≤ 2 := by
    rcases node.role with _ | _ | (_ | _ | _) | _ | _ | _ <;> decide
  have filled : node.role = .plain ∨ 0 < node.ownTokens.length := by
    match node with
    | .regex (.single _) | .sequence _ | .expr (.mk _ none) => exact .inl rfl
    | .regex (.alternate _ _ _) | .expr (.mk _ (some _)) => exact .inr (Nat.succ_pos _)
    | .term (.atom _) | .term (.group _ _ _) | .term (.charClass _ _ _ _) =>
      exact .inr (Nat.succ_pos _)
  rw [opcodes]
  rcases filled with plain | filled
  · rw [plain]
    exact Nat.zero_le _
  · omega

/-- Nodes add at most two instructions for each of their tokens. -/
theorem length_opcodes_flatMap_le (nodes : List Subtree) :
    (nodes.flatMap Subtree.opcodes).length ≤ 2 * (nodes.flatMap Subtree.ownTokens).length := by
  induction nodes with
  | nil => exact Nat.le_refl 0
  | cons node others inductionHypothesis =>
    have first := node.length_opcodes_le
    rw [List.flatMap_cons, List.flatMap_cons, List.length_append, List.length_append]
    omega

/-! ### Programs -/

/-- A program has one instruction that accepts, and those that the nodes of its tree add. -/
theorem Regex.opcodes_program_perm (regex : Regex) :
    (regex.program.insts.toList.map Inst.opcode).Perm
      (.accept :: regex.roles.flatMap Role.opcodes) := by
  rw [regex.toList_program, List.map_append, Block.map_opcode_resolved, Regex.roles,
    List.flatMap_map]
  exact (List.perm_append_singleton Opcode.accept _).trans ((regex.opcodes_perm 0).cons _)

/-- The exact size of a program. It has a split for every repetition and every `|` of its
pattern, a jump for every `*` and every `|`, and two saves for every group. Beside these there
is an instruction for every atom and every class, and one that accepts. So there are at most
two instructions for each character of the pattern, and one. -/
theorem compile_size (pattern : String) (tree : Regex) (parsed : parse pattern = .ok tree) :
    compile pattern = .ok tree.program ∧
    tree.program.count .split =
      tree.roles.countP Role.isRepetition + countPipes (patternTokens pattern) ∧
    tree.program.count .jump =
      tree.roles.count (.repetition .zeroOrMore) + countPipes (patternTokens pattern) ∧
    tree.program.count .save = 2 * tree.roles.count .group ∧
    tree.program.size =
      1 + tree.roles.count .atom + tree.roles.count .charClass + 2 * tree.roles.count .group +
        2 * tree.roles.count (.repetition .zeroOrMore) +
        tree.roles.count (.repetition .oneOrMore) + tree.roles.count (.repetition .zeroOrOne) +
        2 * countPipes (patternTokens pattern) ∧
    tree.program.size ≤ 2 * pattern.length + 1 := by
  obtain ⟨conforms, _, tokens⟩ := (parse_eq_ok_iff pattern tree).mp parsed
  have pipes : countPipes (patternTokens pattern) = tree.roles.count .alternation := by
    rw [← tokens, countPipes, (tree.tokens_perm.map Token.kind).count_eq]
    exact countPipes_flatMap conforms.nodes
  have opcodes := tree.opcodes_program_perm
  have size : tree.program.size = (tree.roles.flatMap Role.opcodes).length + 1 := by
    have length := opcodes.length_eq
    rwa [List.length_map, List.length_cons, Array.length_toList] at length
  have short : tree.program.size ≤ 2 * pattern.length + 1 := by
    have few := length_opcodes_flatMap_le tree.preorder
    have counted := tree.tokens_perm.length_eq
    have fewer := length_lexemes_le 0 pattern.toList
    rw [← patternTokens_eq, ← tokens, String.length_toList] at fewer
    have same : tree.roles.flatMap Role.opcodes = tree.preorder.flatMap Subtree.opcodes :=
      List.flatMap_map ..
    rw [size, same]
    omega
  obtain ⟨splits, jumps, saves, all⟩ := tally tree.roles
  refine ⟨(compile_eq_ok_iff _ _).mpr ⟨tree, parsed, rfl⟩, ?_, ?_, ?_, ?_, short⟩
  · rw [Program.count, opcodes.count_eq, List.count_cons_of_ne (by decide), splits, pipes]
  · rw [Program.count, opcodes.count_eq, List.count_cons_of_ne (by decide), jumps, pipes]
  · rw [Program.count, opcodes.count_eq, List.count_cons_of_ne (by decide), saves]
  · rw [size, all, pipes]
    omega

/-- Groups inside one another, an empty alternative, and quantifiers of all kinds. -/
theorem compile_size_nested : ∃ tree : Regex, parse "(a*?|([^b-d]+)?|)\\d" = .ok tree ∧
    tree.roles.countP Role.isRepetition = 3 ∧
    countPipes (patternTokens "(a*?|([^b-d]+)?|)\\d") = 2 ∧
    tree.program.count .split = 5 ∧ tree.program.count .jump = 3 ∧ tree.program.count .save = 4 ∧
    tree.program.size = 16 ∧ tree.program.size ≤ 2 * 19 + 1 := by
  have parsed : parse "(a*?|([^b-d]+)?|)\\d" = .ok _ := rfl
  obtain ⟨_, splits, jumps, saves, size, short⟩ := compile_size _ _ parsed
  exact ⟨_, parsed, by decide, by decide, splits, jumps, saves, size, short⟩

end RegexCompiler
