import RegexCompiler.Proofs.Lexemes
import RegexCompiler.Proofs.Relocation
import RegexCompiler.Proofs.Unambiguity
import RegexCompiler.Proofs.Viability

/-!
# Patterns put together

Writing one pattern behind another, or two with a `|` between them, or one between
parentheses, does to the programs what it does to the texts. The code of each part stands
in the code of the whole with its targets and slots moved, and a branch that led to the
end of the first part leads to whatever comes next.

The tokens of the whole are those of the parts, moved. From the trees of the parts a tree
with these tokens is put together, and it is the one that parsing finds, since no other
canonical tree has the same tokens. Its layout is composed of the layouts of the parts.
What has to be known of a pattern beforehand is read off its tokens: whether a `|` stands
where no group is open, and how many groups are open at once.
-/

namespace RegexCompiler

/-! ### Open groups -/

/-- Number of groups that are opened and not closed by the tokens. -/
def openGroups (tokens : List Token) : Int :=
  ((tokens.map Token.kind).count .leftParen : Int) - (tokens.map Token.kind).count .rightParen

/-- A `|` stands outside all groups of the pattern. -/
def HasOuterPipe (pattern : String) : Prop :=
  ∃ index < (patternTokens pattern).length,
    (patternTokens pattern)[index]?.map Token.kind = some .pipe ∧
      openGroups ((patternTokens pattern).take index) = 0

/-- At most `limit` groups are open at any place of the pattern. -/
def NestsWithin (limit : Nat) (pattern : String) : Prop :=
  ∀ index < (patternTokens pattern).length + 1,
    openGroups ((patternTokens pattern).take index) ≤ limit

instance (pattern : String) : Decidable (HasOuterPipe pattern) :=
  inferInstanceAs (Decidable (∃ index < _, _ ∧ _))

instance (limit : Nat) (pattern : String) : Decidable (NestsWithin limit pattern) :=
  inferInstanceAs (Decidable (∀ index < _, _))

/-- Groups opened in a row add up. -/
theorem openGroups_append (left right : List Token) :
    openGroups (left ++ right) = openGroups left + openGroups right := by
  simp only [openGroups, List.map_append, List.count_append]
  omega

/-- Derivable tokens close every group that they open. -/
theorem Derives.openGroups_eq {symbol : Symbol} {nesting : Nat} {tokens : List Token}
    (derivation : Derives symbol nesting (tokens.map Token.kind)) : openGroups tokens = 0 := by
  rw [openGroups, derivation.balanced, Int.sub_self]

/-- A pattern without a `|` outside its groups has a single alternative. -/
theorem exists_single_of_not_hasOuterPipe {pattern : String} {tree : Regex}
    (parsed : parse pattern = .ok tree) (noPipe : ¬ HasOuterPipe pattern) :
    ∃ sequence, tree = .single sequence := by
  obtain ⟨conforms, _, tokens⟩ := (parse_eq_ok_iff pattern tree).mp parsed
  cases tree with
  | single sequence => exact ⟨sequence, rfl⟩
  | alternate sequence pipe rest =>
    simp only [Regex.Conforms, Regex.tokens] at conforms tokens
    refine absurd ⟨sequence.tokens.length, ?_, ?_, ?_⟩ noPipe
    · simp [← tokens]
    · simp [← tokens, conforms.2.1]
    · rw [← tokens, List.take_left' rfl]
      exact conforms.1.derives.openGroups_eq

/-- At most `limit` groups are open behind any tokens at the front. -/
def OpensWithin (limit : Int) (tokens : List Token) : Prop :=
  ∀ before, before <+: tokens → openGroups before ≤ limit

/-- What holds of tokens in a row holds of the first. -/
theorem OpensWithin.left {limit : Int} {left right : List Token}
    (within : OpensWithin limit (left ++ right)) : OpensWithin limit left :=
  fun before begins => within before (begins.trans (List.prefix_append left right))

/-- What holds of tokens in a row holds of the second, less what the first leave open. -/
theorem OpensWithin.right {limit : Int} {left right : List Token}
    (within : OpensWithin limit (left ++ right)) :
    OpensWithin (limit - openGroups left) right := by
  intro before begins
  have bound := within (left ++ before) ((List.prefix_append_right_inj left).mpr begins)
  rw [openGroups_append] at bound
  omega

mutual

/-- A regex conforms with as much nesting as its tokens have. -/
theorem Regex.Conforms.tighten {nesting limit : Nat} {regex : Regex}
    (conforms : regex.Conforms nesting) (within : OpensWithin limit regex.tokens) :
    regex.Conforms limit := by
  cases regex with
  | single sequence => exact Sequence.Conforms.tighten conforms within
  | alternate sequence pipe rest =>
    simp only [Regex.Conforms, Regex.tokens] at conforms within ⊢
    obtain ⟨first, isPipe, others⟩ := conforms
    have pipeOpens : openGroups [pipe] = 0 := by simp [openGroups, isPipe]
    have behind := (List.append_cons sequence.tokens pipe rest.tokens ▸ within).right
    rw [openGroups_append, first.derives.openGroups_eq, pipeOpens, Int.add_zero, Int.sub_zero]
      at behind
    exact ⟨Sequence.Conforms.tighten first within.left, isPipe,
      Regex.Conforms.tighten others behind⟩

/-- A sequence conforms with as much nesting as its tokens have. -/
theorem Sequence.Conforms.tighten {nesting limit : Nat} {sequence : Sequence}
    (conforms : sequence.Conforms nesting) (within : OpensWithin limit sequence.tokens) :
    sequence.Conforms limit := by
  cases sequence with
  | empty => trivial
  | last expr => exact Expr.Conforms.tighten conforms within
  | link expr tail =>
    simp only [Sequence.Conforms, Sequence.tokens] at conforms within ⊢
    have behind := within.right
    rw [conforms.1.derives.openGroups_eq, Int.sub_zero] at behind
    exact ⟨Expr.Conforms.tighten conforms.1 within.left,
      Sequence.Conforms.tighten conforms.2 behind⟩

/-- An expression conforms with as much nesting as its tokens have. -/
theorem Expr.Conforms.tighten {nesting limit : Nat} {expr : Expr}
    (conforms : expr.Conforms nesting) (within : OpensWithin limit expr.tokens) :
    expr.Conforms limit := by
  cases expr with
  | mk term quantifier =>
    simp only [Expr.Conforms, Expr.tokens_mk] at conforms within ⊢
    exact ⟨Term.Conforms.tighten conforms.1 within.left, conforms.2⟩

/-- A term conforms with as much nesting as its tokens have. -/
theorem Term.Conforms.tighten {nesting limit : Nat} {term : Term}
    (conforms : term.Conforms nesting) (within : OpensWithin limit term.tokens) :
    term.Conforms limit := by
  cases term with
  | atom token => exact conforms
  | group opening regex closing =>
    simp only [Term.Conforms, Term.tokens] at conforms within ⊢
    obtain ⟨opens, closes, fewer, _, body⟩ := conforms
    have opened : openGroups [opening] = 1 := by simp [openGroups, opens]
    rw [← List.singleton_append] at within
    -- the parenthesis alone opens a group, so the limit is not zero
    have bound := within [opening] (List.prefix_append _ _)
    obtain ⟨less, rfl⟩ : ∃ less, limit = less + 1 :=
      Nat.exists_eq_succ_of_ne_zero (by omega)
    have inner := within.right.left
    rw [opened, Int.natCast_add, Int.natCast_one, Int.add_sub_cancel] at inner
    exact ⟨opens, closes, less, rfl, Regex.Conforms.tighten body inner⟩
  | charClass opening negation members closing => exact conforms

end

/-- The tree of a pattern conforms with as much nesting as the pattern has. -/
theorem NestsWithin.conforms {limit : Nat} {pattern : String} {tree : Regex}
    (nests : NestsWithin limit pattern) (parsed : parse pattern = .ok tree) :
    tree.Conforms limit := by
  obtain ⟨conforms, _, tokens⟩ := (parse_eq_ok_iff pattern tree).mp parsed
  refine conforms.tighten ?_
  intro before begins
  rw [tokens] at begins
  have bound := nests before.length (Nat.lt_succ_of_le begins.length_le)
  rwa [← List.prefix_iff_eq_take.mp begins] at bound

/-! ### Sequences in a row -/

namespace Sequence

/-- Put an expression before a sequence. -/
def before (expr : Expr) : Sequence → Sequence
  | .empty => .last expr
  | sequence => .link expr sequence

/-- The expressions of two sequences in a row. -/
def append : Sequence → Sequence → Sequence
  | .empty, right => right
  | .last expr, right => right.before expr
  | .link expr tail, right => (tail.append right).before expr

/-- An expression before a sequence is as good as a link to it, in tokens, in grammar, in
groups and in code. -/
theorem before_eq (expr : Expr) (sequence : Sequence) :
    (sequence.before expr).tokens = expr.tokens ++ sequence.tokens ∧
      (∀ nesting, (sequence.before expr).Conforms nesting ↔
        expr.Conforms nesting ∧ sequence.Conforms nesting) ∧
      (sequence.before expr).groups = expr.groups + sequence.groups ∧
      ∀ slots, (sequence.before expr).layout slots =
        expr.layout slots ++ sequence.layout (slots + 2 * expr.groups) := by
  cases sequence <;> simp [before, Sequence.tokens, Sequence.Conforms, Sequence.groups,
    Sequence.layout]

/-- A canonical expression before a canonical sequence is canonical with it. -/
theorem canonical_before {expr : Expr} {sequence : Sequence} (first : expr.Canonical)
    (others : sequence.Canonical) : (sequence.before expr).Canonical := by
  cases sequence with
  | empty => exact first
  | last next => exact ⟨first, by simp, others⟩
  | link next tail => exact ⟨first, by simp, others⟩

/-- The tokens of sequences in a row. -/
theorem tokens_append : (left right : Sequence) →
    (left.append right).tokens = left.tokens ++ right.tokens
  | .empty, _ => rfl
  | .last expr, right => (before_eq expr right).1
  | .link expr tail, right => by
    rw [append, (before_eq expr _).1, tail.tokens_append, Sequence.tokens, List.append_assoc]

/-- Sequences in a row conform if each does. -/
theorem conforms_append (nesting : Nat) : (left right : Sequence) → left.Conforms nesting →
    right.Conforms nesting → (left.append right).Conforms nesting
  | .empty, _, _, second => second
  | .last expr, right, first, second => ((before_eq expr right).2.1 nesting).mpr ⟨first, second⟩
  | .link expr tail, right, first, second =>
    ((before_eq expr _).2.1 nesting).mpr
      ⟨first.1, tail.conforms_append nesting right first.2 second⟩

/-- Canonical sequences in a row are canonical. -/
theorem canonical_append : (left right : Sequence) → left.Canonical → right.Canonical →
    (left.append right).Canonical
  | .empty, _, _, second => second
  | .last _, _, first, second => canonical_before first second
  | .link _ tail, right, first, second =>
    canonical_before first.1 (tail.canonical_append right first.2.2 second)

/-- The groups of sequences in a row. -/
theorem groups_append : (left right : Sequence) →
    (left.append right).groups = left.groups + right.groups
  | .empty, _ => (Nat.zero_add _).symm
  | .last expr, right => (before_eq expr right).2.2.1
  | .link expr tail, right => by
    rw [append, (before_eq expr _).2.2.1, tail.groups_append, Sequence.groups, Nat.add_assoc]

/-- The block of sequences in a row: the second is laid out after the groups of the
first. -/
theorem layout_append (slots : Nat) : (left right : Sequence) →
    (left.append right).layout slots =
      left.layout slots ++ right.layout (slots + 2 * left.groups)
  | .empty, _ => rfl
  | .last expr, right => (before_eq expr right).2.2.2 slots
  | .link expr tail, right => by
    rw [append, (before_eq expr _).2.2.2, tail.layout_append, Sequence.layout, Sequence.groups,
      List.append_assoc, Nat.mul_add, Nat.add_assoc]

end Sequence

/-! ### Programs put together -/

namespace Program

/-- The instructions before the last one. -/
def body (program : Program) : List (Inst Nat) := program.insts.toList.dropLast

/-- One program behind another. The last instruction of the first makes room for the first
of the second. -/
def andThen (left right : Program) : Program :=
  ⟨(left.body ++ right.insts.toList.map (Inst.relocate left.body.length left.slots)).toArray,
    left.slots + right.slots⟩

/-- Either of two programs, preferably the first. A split leads to both, and a jump behind
the first leads to the end of the second. -/
def either (left right : Program) : Program :=
  ⟨(.split 1 (left.body.length + 2) :: (left.body.map (Inst.relocate 1 0) ++
      .jump (left.body.length + 1 + right.size) ::
        right.insts.toList.map (Inst.relocate (left.body.length + 2) left.slots))).toArray,
    left.slots + right.slots⟩

/-- A program between the two instructions that save its bounds in the first two slots. -/
def grouped (inner : Program) : Program :=
  ⟨(.save 0 :: (inner.body.map (Inst.relocate 1 2) ++ [.save 1, .accept])).toArray,
    inner.slots + 2⟩

end Program

/-- Programs with the same instructions and slots are the same. -/
theorem Program.eq_of_toList {left right : Program}
    (insts : left.insts.toList = right.insts.toList) (slots : left.slots = right.slots) :
    left = right := by
  cases left
  cases right
  simp_all [Array.toList_inj]

/-- Without its last instruction, the program of a tree is its block. -/
theorem Regex.body_program (regex : Regex) :
    regex.program.body = Block.resolved 0 (regex.layout 0) := by
  rw [Program.body, regex.toList_program, List.dropLast_concat]

/-- The last instruction of a tree's program accepts. -/
theorem Regex.body_append_accept (regex : Regex) :
    regex.program.body ++ [.accept] = regex.program.insts.toList := by
  rw [regex.body_program, regex.toList_program]

/-- A tree that is laid out after `slots` slots and from `start` on has the instructions of
its program, relocated. -/
theorem Regex.resolved_layout (regex : Regex) (start slots : Nat) :
    Block.resolved start (regex.layout slots) =
      regex.program.body.map (Inst.relocate start slots) := by
  have moved := regex.layout_add 0 slots
  rw [Nat.zero_add] at moved
  rw [moved, Block.resolved_mapSlots _ (regex.layout_closed 0), regex.body_program]

/-- The number of instructions of a tree does not depend on the slots before it. -/
theorem Regex.length_layout (regex : Regex) (slots : Nat) :
    (regex.layout slots).length = regex.program.body.length := by
  have resolved := congrArg List.length (regex.resolved_layout 0 slots)
  rwa [Block.length_resolved, List.length_map] at resolved

/-- Sequences in a row have their programs in a row. -/
theorem program_append (left right : Sequence) :
    (Regex.single (left.append right)).program =
      (Regex.single left).program.andThen (Regex.single right).program := by
  have first := (Regex.single left).body_program
  have size := (Regex.single left).length_layout 0
  have second := (Regex.single right).resolved_layout (left.layout 0).length (2 * left.groups)
  simp only [Regex.layout] at first size second
  refine Program.eq_of_toList ?_ ?_
  · rw [Regex.toList_program, Program.andThen, ← (Regex.single right).body_append_accept,
      Regex.slots_program, ← size]
    simp only [Regex.layout, Regex.groups, left.layout_append, Block.resolved_append,
      Nat.zero_add, List.append_assoc, first, second, List.map_append]
    rfl
  · simp only [Program.andThen, Regex.slots_program, Regex.groups, left.groups_append,
      Nat.mul_add]

/-- Alternatives have either of their programs. -/
theorem program_alternate (left : Sequence) (pipe : Token) (right : Regex) :
    (Regex.alternate left pipe right).program =
      (Regex.single left).program.either right.program := by
  have size := (Regex.single left).length_layout 0
  have first := (Regex.single left).resolved_layout 1 0
  have second := right.resolved_layout ((Regex.single left).program.body.length + 2)
    (2 * left.groups)
  simp only [Regex.layout] at size first
  have entry : (Inst.split 1 ((left.layout 0).length + 2 : Int)).placedAt 0 =
      .split 1 ((Regex.single left).program.body.length + 2) := by
    simp only [Inst.placedAt, Inst.mapTargets, Inst.split.injEq, ← size]
    omega
  have leap : (Inst.jump ((right.layout (2 * left.groups)).length + 1 : Int)).placedAt
      (1 + (left.layout 0).length) =
        .jump ((Regex.single left).program.body.length + 1 + right.program.size) := by
    rw [right.program_size, right.length_layout, right.length_layout]
    simp only [Inst.placedAt, Inst.mapTargets, Inst.jump.injEq, ← size]
    omega
  refine Program.eq_of_toList ?_ ?_
  · rw [Regex.toList_program, Program.either, ← right.body_append_accept, Regex.slots_program]
    simp only [Regex.layout, alternateLayout, Regex.groups, Block.resolved_cons,
      Block.resolved_append, Nat.zero_add, entry, first, leap,
      List.cons_append, List.append_assoc, List.map_append]
    rw [size, show 1 + (Regex.single left).program.body.length + 1 =
      (Regex.single left).program.body.length + 2 by omega, second]
    rfl
  · simp only [Program.either, Regex.slots_program, Regex.groups, Nat.mul_add]

/-- A group has its program between two saves. -/
theorem program_group (opening closing : Token) (inner : Regex) :
    (Regex.single (.last (.mk (.group opening inner closing) none))).program =
      inner.program.grouped := by
  have body := inner.resolved_layout 1 2
  refine Program.eq_of_toList ?_ ?_
  · rw [Regex.toList_program, Program.grouped]
    simp only [Regex.layout, Sequence.layout, Expr.layout, Term.layout, Block.resolved_cons,
      Block.resolved_append, Nat.zero_add, body, List.cons_append, List.append_assoc]
    rfl
  · simp only [Program.grouped, Regex.slots_program, Regex.groups, Sequence.groups, Expr.groups,
      Term.groups, Nat.mul_add, Nat.mul_one]

/-! ### Patterns put together -/

/-- A tree with the tokens of a pattern is the one that compiling translates. -/
theorem compile_eq_program {pattern : String} {tree : Regex}
    (conforms : tree.Conforms nestingLimit) (canonical : tree.Canonical)
    (tokens : tree.tokens = patternTokens pattern) : compile pattern = .ok tree.program :=
  (compile_eq_ok_iff pattern tree.program).mpr
    ⟨tree, (parse_eq_ok_iff pattern tree).mpr ⟨conforms, canonical, tokens⟩, rfl⟩

/-- The tokens of two patterns with a `|` between them. -/
theorem patternTokens_pipe (left right : String) (visible : '\x00' ∉ left.toList)
    (paired : trailingBackslashes left.toList % 2 = 0) :
    ∃ pipe distance, pipe.kind = .pipe ∧ patternTokens (left ++ "|" ++ right) =
      patternTokens left ++
        pipe :: (patternTokens right).map (Token.mapPositions (· + distance)) := by
  obtain ⟨reached, split⟩ := lexemes_append 0 left.toList ('|' :: right.toList) visible paired
  refine ⟨⟨.pipe, '|', ⟨reached, reached + 1⟩⟩, reached + 1, rfl, ?_⟩
  have behind := lexemes_cons reached right.toList (show '|' ≠ '\x00' by decide)
    (show '|' ≠ '\\' by decide)
  have moved := lexemes_moved 0 (reached + 1) right.toList
  rw [Nat.zero_add] at moved
  rw [patternTokens_eq, patternTokens_eq, patternTokens_eq, String.toList_append,
    String.toList_append, List.append_assoc, ← moved]
  exact split.trans (congrArg _ behind)

/-- The tokens of a pattern between parentheses. -/
theorem patternTokens_group (inner : String) (visible : '\x00' ∉ inner.toList)
    (paired : trailingBackslashes inner.toList % 2 = 0) :
    ∃ opening closing, opening.kind = .leftParen ∧ closing.kind = .rightParen ∧
      patternTokens ("(" ++ inner ++ ")") =
        opening :: ((patternTokens inner).map (Token.mapPositions (· + 1)) ++ [closing]) := by
  obtain ⟨reached, split⟩ := lexemes_append 1 inner.toList [')'] visible paired
  refine ⟨⟨.leftParen, '(', ⟨0, 1⟩⟩, ⟨.rightParen, ')', ⟨reached, reached + 1⟩⟩, rfl, rfl, ?_⟩
  have ahead := lexemes_cons 0 (inner.toList ++ [')']) (show '(' ≠ '\x00' by decide)
    (show '(' ≠ '\\' by decide)
  have behind : lexemes reached [')'] = [⟨.rightParen, ')', ⟨reached, reached + 1⟩⟩] :=
    lexemes_cons reached [] (show ')' ≠ '\x00' by decide) (show ')' ≠ '\\' by decide)
  have moved := lexemes_moved 0 1 inner.toList
  rw [Nat.zero_add] at moved
  rw [patternTokens_eq, patternTokens_eq, String.toList_append, String.toList_append,
    ← moved, ← behind, ← split]
  exact ahead

/-- Patterns without an outer `|` compile to programs in a row when they are written in a
row. -/
theorem compile_append {left right : String} {leftProgram rightProgram : Program}
    (visible : '\x00' ∉ left.toList) (paired : trailingBackslashes left.toList % 2 = 0)
    (leftSingle : ¬ HasOuterPipe left) (rightSingle : ¬ HasOuterPipe right)
    (leftCompiled : compile left = .ok leftProgram)
    (rightCompiled : compile right = .ok rightProgram) :
    compile (left ++ right) = .ok (leftProgram.andThen rightProgram) := by
  obtain ⟨leftTree, leftParsed, rfl⟩ := (compile_eq_ok_iff left leftProgram).mp leftCompiled
  obtain ⟨rightTree, rightParsed, rfl⟩ := (compile_eq_ok_iff right rightProgram).mp rightCompiled
  obtain ⟨first, rfl⟩ := exists_single_of_not_hasOuterPipe leftParsed leftSingle
  obtain ⟨second, rfl⟩ := exists_single_of_not_hasOuterPipe rightParsed rightSingle
  obtain ⟨firstConforms, firstCanonical, firstTokens⟩ := (parse_eq_ok_iff _ _).mp leftParsed
  obtain ⟨secondConforms, secondCanonical, secondTokens⟩ := (parse_eq_ok_iff _ _).mp rightParsed
  obtain ⟨distance, tokens⟩ := patternTokens_append left right visible paired
  simp only [Regex.Conforms, Regex.Canonical, Regex.tokens]
    at firstConforms firstCanonical firstTokens secondConforms secondCanonical secondTokens
  have program := program_append first (second.mapPositions (· + distance))
  rw [← Regex.mapPositions, Regex.program_mapPositions] at program
  rw [← program]
  refine compile_eq_program ?_ ?_ ?_
  · exact first.conforms_append nestingLimit _ firstConforms
      ((second.conforms_mapPositions _ nestingLimit).mpr secondConforms)
  · exact first.canonical_append _ firstCanonical
      (Sequence.canonical_mapPositions _ secondCanonical)
  · rw [Regex.tokens, first.tokens_append, second.tokens_mapPositions, firstTokens, secondTokens,
      tokens]

/-- A pattern without an outer `|` and any other compile to either program when they are
written with a `|` between them. -/
theorem compile_pipe {left right : String} {leftProgram rightProgram : Program}
    (visible : '\x00' ∉ left.toList) (paired : trailingBackslashes left.toList % 2 = 0)
    (leftSingle : ¬ HasOuterPipe left) (leftCompiled : compile left = .ok leftProgram)
    (rightCompiled : compile right = .ok rightProgram) :
    compile (left ++ "|" ++ right) = .ok (leftProgram.either rightProgram) := by
  obtain ⟨leftTree, leftParsed, rfl⟩ := (compile_eq_ok_iff left leftProgram).mp leftCompiled
  obtain ⟨second, rightParsed, rfl⟩ := (compile_eq_ok_iff right rightProgram).mp rightCompiled
  obtain ⟨first, rfl⟩ := exists_single_of_not_hasOuterPipe leftParsed leftSingle
  obtain ⟨firstConforms, firstCanonical, firstTokens⟩ := (parse_eq_ok_iff _ _).mp leftParsed
  obtain ⟨secondConforms, secondCanonical, secondTokens⟩ := (parse_eq_ok_iff _ _).mp rightParsed
  obtain ⟨pipe, distance, isPipe, tokens⟩ := patternTokens_pipe left right visible paired
  rw [Regex.tokens] at firstTokens
  have program := program_alternate first pipe (second.mapPositions (· + distance))
  rw [Regex.program_mapPositions] at program
  rw [← program]
  refine compile_eq_program ?_ ?_ ?_
  · exact ⟨firstConforms, isPipe, (second.conforms_mapPositions _ nestingLimit).mpr secondConforms⟩
  · exact ⟨firstCanonical, Regex.canonical_mapPositions _ secondCanonical⟩
  · rw [Regex.tokens, second.tokens_mapPositions, firstTokens, secondTokens, tokens]

/-- A pattern with one level of nesting to spare compiles to its program between two saves
when it is written between parentheses. -/
theorem compile_group {inner : String} {program : Program} (visible : '\x00' ∉ inner.toList)
    (paired : trailingBackslashes inner.toList % 2 = 0) (nests : NestsWithin 127 inner)
    (compiled : compile inner = .ok program) :
    compile ("(" ++ inner ++ ")") = .ok program.grouped := by
  obtain ⟨tree, parsed, rfl⟩ := (compile_eq_ok_iff inner program).mp compiled
  obtain ⟨-, canonical, innerTokens⟩ := (parse_eq_ok_iff inner tree).mp parsed
  obtain ⟨opening, closing, opens, closes, tokens⟩ := patternTokens_group inner visible paired
  have program := program_group opening closing (tree.mapPositions (· + 1))
  rw [Regex.program_mapPositions] at program
  rw [← program]
  refine compile_eq_program ?_ ?_ ?_
  · have conforms := (tree.conforms_mapPositions (· + 1) 127).mpr (nests.conforms parsed)
    exact ⟨⟨opens, closes, 127, rfl, conforms⟩, by simp⟩
  · exact Regex.canonical_mapPositions _ canonical
  · rw [Regex.tokens, Sequence.tokens, Expr.tokens, Term.tokens, tree.tokens_mapPositions,
      innerTokens, tokens]

/-- Compiling respects how patterns are put together. Let a pattern be accepted that has no
NUL and does not end in the first half of an escape. Before a second pattern, its
instructions come first and those of the second follow, with targets and slots moved past
them, as long as neither has a `|` outside its groups. With a `|` between the two, a split
leads to either and a jump past the second, as long as the first has no `|` outside its
groups. Between parentheses, its instructions stand between two saves, as long as there is
a level of nesting to spare. -/
theorem compile_compositional (left : String) (leftProgram : Program)
    (compiled : compile left = .ok leftProgram) (visible : '\x00' ∉ left.toList)
    (paired : trailingBackslashes left.toList % 2 = 0) :
    (∀ right rightProgram, compile right = .ok rightProgram → ¬ HasOuterPipe left →
      (¬ HasOuterPipe right →
        compile (left ++ right) = .ok (leftProgram.andThen rightProgram)) ∧
      compile (left ++ "|" ++ right) = .ok (leftProgram.either rightProgram)) ∧
    (NestsWithin 127 left → compile ("(" ++ left ++ ")") = .ok leftProgram.grouped) := by
  refine ⟨?_, fun nests => compile_group visible paired nests compiled⟩
  intro right rightProgram rightCompiled leftSingle
  refine ⟨?_, compile_pipe visible paired leftSingle compiled rightCompiled⟩
  intro rightSingle
  exact compile_append visible paired leftSingle rightSingle compiled rightCompiled

/-- A group that repeats, before another group and beside it. -/
theorem compile_compositional_groups : ∃ leftProgram rightProgram : Program,
    compile "(a|\\\\)*" = .ok leftProgram ∧ compile "(b)" = .ok rightProgram ∧
      compile "(a|\\\\)*(b)" = .ok (leftProgram.andThen rightProgram) ∧
      compile "(a|\\\\)*|(b)" = .ok (leftProgram.either rightProgram) ∧
      compile "((a|\\\\)*)" = .ok leftProgram.grouped := by
  have composed := compile_compositional "(a|\\\\)*" _ rfl (by decide) (by decide)
  obtain ⟨inRow, beside⟩ := composed.1 "(b)" _ rfl (by decide)
  exact ⟨_, _, rfl, rfl, inRow (by decide), beside, composed.2 (by decide)⟩

end RegexCompiler
