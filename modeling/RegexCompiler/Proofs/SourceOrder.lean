import RegexCompiler.Proofs.Relocation
import RegexCompiler.Proofs.Unambiguity

/-!
# The order of the source

A program jumps back and forth, but its instructions stand in the order of the pattern.
Without the instructions that only direct the flow, what is left can be transcribed from
the tokens in one pass: an atom gives one instruction, a class gives one for all its
members, and a parenthesis saves a position. The pass numbers the groups as they open and
keeps those that are open on a stack, so a closing parenthesis takes up the number of the
group that it ends.

On the side of the code, the block of a tree has the elements of its parts in a row,
whatever is put around and between them. On the side of the tokens, the pass reads those
of a part, leaves the stack as it was and goes on behind them. Both follow the recursion
of the tree, and so does the numbering of the slots: the slots of a part are those of
consecutive groups, each once and one pair inside or beside the other.
-/

namespace RegexCompiler

/-- The instruction stands for something in the pattern. The others direct the flow. -/
def Inst.isElement {τ : Type} : Inst τ → Bool
  | .accept | .jump _ | .split _ _ => false
  | _ => true

/-- The slot that an instruction writes. -/
def Inst.slot? {τ : Type} : Inst τ → Option Nat
  | .save slot => some slot
  | _ => none

/-- The slots that a program writes, in the order of its instructions. -/
def Program.saves (program : Program) : List Nat := program.insts.toList.filterMap Inst.slot?

/-! ### Transcribing tokens -/

/-- The instruction for the tokens between two brackets. -/
def transcribeClass (inner : List Token) : Inst Nat :=
  if inner.head?.map Token.kind = some .caret then
    .noneOf ((segments inner.tail).map Member.bounds)
  else .oneOf ((segments inner).map Member.bounds)

/-- The instructions that stand for tokens, of which the first is between brackets if
`inClass` holds. So far `opened` groups have been opened, and those in `pending` are still
open, the innermost first. -/
def transcribe (opened : Nat) (pending : List Nat) (inClass : Bool) :
    List Token → List (Inst Nat)
  | [] => []
  | token :: rest =>
    if inClass then transcribe opened pending (token.kind ≠ .rightBracket) rest
    else
      match token.kind with
      | .literal | .escape => .char token.char :: transcribe opened pending false rest
      | .dot => .any :: transcribe opened pending false rest
      | .leftBracket =>
        transcribeClass (rest.takeWhile (·.kind ≠ .rightBracket)) ::
          transcribe opened pending true rest
      | .leftParen => .save (2 * opened) :: transcribe (opened + 1) (opened :: pending) false rest
      | .rightParen =>
        pending.head?.toList.map (fun group => .save (2 * group + 1)) ++
          transcribe opened pending.tail false rest
      | _ => transcribe opened pending false rest

/-- The instructions that stand for the tokens of a pattern. -/
def transcript (tokens : List Token) : List (Inst Nat) := transcribe 0 [] false tokens

/-- Up to the bracket that closes a class nothing is transcribed. -/
theorem transcribe_inClass (opened : Nat) (pending : List Nat) (inner : List Token)
    (closing : Token) (rest : List Token) (inside : ∀ token ∈ inner, token.kind ≠ .rightBracket)
    (closes : closing.kind = .rightBracket) :
    transcribe opened pending true (inner ++ closing :: rest) =
      transcribe opened pending false rest := by
  induction inner with
  | nil => simp [transcribe, closes]
  | cons token others inductionHypothesis =>
    obtain ⟨first, later⟩ := List.forall_mem_cons.mp inside
    simp [transcribe, first, inductionHypothesis later]

/-- A class is transcribed from the tokens between its brackets. -/
theorem transcribe_class (opened : Nat) (pending : List Nat) (opening closing : Token)
    (inner rest : List Token) (opens : opening.kind = .leftBracket)
    (inside : ∀ token ∈ inner, token.kind ≠ .rightBracket)
    (closes : closing.kind = .rightBracket) :
    transcribe opened pending false (opening :: (inner ++ closing :: rest)) =
      transcribeClass inner :: transcribe opened pending false rest := by
  have taken : (inner ++ closing :: rest).takeWhile (·.kind ≠ .rightBracket) = inner := by
    rw [List.takeWhile_append_of_pos (by simpa using inside)]
    simp [closes]
  rw [transcribe]
  simp only [opens, taken, transcribe_inClass opened pending inner closing rest inside closes]
  rfl

/-- A quantifier is not transcribed. -/
theorem transcribe_quantifier (opened : Nat) (pending : List Nat) (quantifier : Quantifier)
    (conforms : quantifier.Conforms) (rest : List Token) :
    transcribe opened pending false (quantifier.tokens ++ rest) =
      transcribe opened pending false rest := by
  obtain ⟨agrees, marks⟩ := conforms
  cases repeated : quantifier.repetition <;> cases marked : quantifier.lazy with
  | none => simp [Quantifier.tokens, marked, transcribe, agrees, repeated, Repetition.operatorKind]
  | some mark =>
    simp [Quantifier.tokens, marked, transcribe, agrees, repeated, Repetition.operatorKind,
      marks mark marked]

/-! ### Elements of a block -/

/-- The instructions of a block that stand for something in the pattern. They have no
targets. -/
def Block.elements (block : Block) : List (Inst Nat) :=
  (block.filter Inst.isElement).map (Inst.placedAt 0)

namespace Block

@[simp]
theorem elements_nil : elements [] = [] := rfl

@[simp]
theorem elements_append (left right : Block) :
    elements (left ++ right) = elements left ++ elements right := by
  simp [elements]

theorem elements_cons (inst : Inst Int) (block : Block) :
    elements (inst :: block) =
      if inst.isElement then inst.placedAt 0 :: elements block else elements block := by
  rw [elements, List.filter_cons]
  split <;> rfl

/-- Resolving a block keeps its elements. -/
theorem filter_resolved (start : Nat) (block : Block) :
    (resolved start block).filter Inst.isElement = elements block := by
  induction block generalizing start with
  | nil => rfl
  | cons inst others inductionHypothesis =>
    rw [resolved_cons, List.filter_cons, elements_cons, inductionHypothesis]
    cases inst <;> rfl

end Block

/-- A repetition has the elements of its body. -/
theorem Quantifier.elements_layout (quantifier : Quantifier) (body : Block) :
    Block.elements (quantifier.layout body) = Block.elements body := by
  have branch (first second : Int) : (quantifier.split first second).isElement = false := by
    rw [Quantifier.split]
    split <;> rfl
  have leap (distance : Int) : (Inst.jump distance).isElement = false := rfl
  rw [Quantifier.layout]
  split <;> simp [Block.elements_cons, branch, leap]

/-- An alternation has the elements of its alternatives in a row. -/
theorem elements_alternateLayout (branch later : Block) :
    Block.elements (alternateLayout branch later) =
      Block.elements branch ++ Block.elements later := by
  simp [alternateLayout, Block.elements_cons, Inst.isElement]

/-- The instruction of a class is transcribed from its negation and its members. -/
theorem transcribeClass_eq (negation : Option Token) (members : Members)
    (carets : ∀ caret ∈ negation, caret.kind = .caret)
    (conform : ∀ member ∈ members.toList, member.Conforms) (canonical : members.Canonical) :
    Block.elements [classInst negation members] =
      [transcribeClass (negation.toList ++ members.tokens)] := by
  have whole := segments_tokens members.toList conform canonical.2
  rw [← Members.tokens] at whole
  cases negation with
  | none =>
    have unmarked : members.tokens.head?.map Token.kind ≠ some .caret := by
      intro marked
      obtain ⟨token, first, isCaret⟩ := Option.map_eq_some_iff.mp marked
      have kinds := members.isMember_of_mem_tokens conform (List.mem_of_mem_head? first)
      simp [isCaret, Kind.IsMember] at kinds
    simp [transcribeClass, unmarked, whole, classInst, Block.elements_cons, Inst.isElement,
      Inst.placedAt, Inst.mapTargets]
  | some caret =>
    simp [transcribeClass, carets caret rfl, whole, classInst, Block.elements_cons,
      Inst.isElement, Inst.placedAt, Inst.mapTargets]

mutual

/-- The tokens of a regex are transcribed to the elements of its block. -/
theorem Regex.transcribe_tokens {nesting : Nat} {regex : Regex}
    (conforms : regex.Conforms nesting) (canonical : regex.Canonical) (opened : Nat)
    (pending : List Nat) (rest : List Token) :
    transcribe opened pending false (regex.tokens ++ rest) =
      Block.elements (regex.layout (2 * opened)) ++
        transcribe (opened + regex.groups) pending false rest := by
  cases regex with
  | single sequence => exact Sequence.transcribe_tokens conforms canonical opened pending rest
  | alternate sequence pipe others =>
    obtain ⟨first, isPipe, later⟩ := conforms
    rw [Regex.tokens, List.append_assoc, List.cons_append,
      Sequence.transcribe_tokens first canonical.1, transcribe]
    simp only [isPipe, Bool.false_eq_true, if_false]
    rw [Regex.transcribe_tokens later canonical.2, Regex.layout, elements_alternateLayout,
      Regex.groups, List.append_assoc, Nat.mul_add, Nat.add_assoc]

/-- The tokens of a sequence are transcribed to the elements of its block. -/
theorem Sequence.transcribe_tokens {nesting : Nat} {sequence : Sequence}
    (conforms : sequence.Conforms nesting) (canonical : sequence.Canonical) (opened : Nat)
    (pending : List Nat) (rest : List Token) :
    transcribe opened pending false (sequence.tokens ++ rest) =
      Block.elements (sequence.layout (2 * opened)) ++
        transcribe (opened + sequence.groups) pending false rest := by
  cases sequence with
  | empty => rfl
  | last expr => exact Expr.transcribe_tokens conforms canonical opened pending rest
  | link expr tail =>
    rw [Sequence.tokens, List.append_assoc, Expr.transcribe_tokens conforms.1 canonical.1,
      Sequence.transcribe_tokens conforms.2 canonical.2.2, Sequence.layout,
      Block.elements_append, Sequence.groups, List.append_assoc, Nat.mul_add, Nat.add_assoc]

/-- The tokens of an expression are transcribed to the elements of its block. -/
theorem Expr.transcribe_tokens {nesting : Nat} {expr : Expr}
    (conforms : expr.Conforms nesting) (canonical : expr.Canonical) (opened : Nat)
    (pending : List Nat) (rest : List Token) :
    transcribe opened pending false (expr.tokens ++ rest) =
      Block.elements (expr.layout (2 * opened)) ++
        transcribe (opened + expr.groups) pending false rest := by
  cases expr with
  | mk term quantifier =>
    cases quantifier with
    | none => exact Term.transcribe_tokens conforms.1 canonical opened pending rest
    | some quantifier =>
      rw [Expr.tokens, List.append_assoc, Term.transcribe_tokens conforms.1 canonical,
        transcribe_quantifier _ _ quantifier (conforms.2 quantifier rfl), Expr.layout,
        quantifier.elements_layout, Expr.groups]

/-- The tokens of a term are transcribed to the elements of its block. -/
theorem Term.transcribe_tokens {nesting : Nat} {term : Term}
    (conforms : term.Conforms nesting) (canonical : term.Canonical) (opened : Nat)
    (pending : List Nat) (rest : List Token) :
    transcribe opened pending false (term.tokens ++ rest) =
      Block.elements (term.layout (2 * opened)) ++
        transcribe (opened + term.groups) pending false rest := by
  cases term with
  | atom token =>
    rcases conforms with kind | kind | kind <;>
      simp [Term.tokens, transcribe, Term.layout, atomInst, Block.elements_cons, kind,
        Inst.isElement, Inst.placedAt, Inst.mapTargets, Term.groups]
  | group opening regex closing =>
    obtain ⟨opens, closes, fewer, -, body⟩ := conforms
    -- the body leaves the number of its group on top of the stack
    have inner := Regex.transcribe_tokens body canonical (opened + 1) (opened :: pending)
      (closing :: rest)
    rw [Term.tokens, List.cons_append, transcribe, List.append_assoc, List.singleton_append]
    simp only [opens, Bool.false_eq_true, if_false, inner]
    simp [transcribe, closes, Term.layout, Block.elements_cons, Inst.isElement, Inst.placedAt,
      Inst.mapTargets, Term.groups, Nat.mul_add, Nat.add_assoc, Nat.add_comm 1]
  | charClass opening negation members closing =>
    obtain ⟨opens, closes, carets, conform⟩ := conforms
    have inside : ∀ token ∈ negation.toList ++ members.tokens, token.kind ≠ .rightBracket := by
      intro token present
      rcases List.mem_append.mp present with marks | belongs
      · simp [carets token (by simpa using marks)]
      · rcases members.isMember_of_mem_tokens conform belongs with literal | minus
        · simp [literal]
        · simp [minus]
    have read := transcribe_class opened pending opening closing _ rest opens inside closes
    rw [Term.layout, transcribeClass_eq negation members carets conform canonical, Term.groups]
    simpa [Term.tokens] using read

end

/-! ### Numbers of groups -/

mutual

/-- A regex has a group for each of its opening parentheses. -/
theorem Regex.count_tokens {nesting : Nat} {regex : Regex} (conforms : regex.Conforms nesting) :
    (regex.tokens.map Token.kind).count .leftParen = regex.groups := by
  cases regex with
  | single sequence => exact Sequence.count_tokens conforms
  | alternate sequence pipe rest =>
    obtain ⟨first, isPipe, later⟩ := conforms
    simp [Regex.tokens, Regex.groups, isPipe, Sequence.count_tokens first,
      Regex.count_tokens later]

/-- A sequence has a group for each of its opening parentheses. -/
theorem Sequence.count_tokens {nesting : Nat} {sequence : Sequence}
    (conforms : sequence.Conforms nesting) :
    (sequence.tokens.map Token.kind).count .leftParen = sequence.groups := by
  cases sequence with
  | empty => rfl
  | last expr => exact Expr.count_tokens conforms
  | link expr tail =>
    simp [Sequence.tokens, Sequence.groups, Expr.count_tokens conforms.1,
      Sequence.count_tokens conforms.2]

/-- An expression has a group for each of its opening parentheses. -/
theorem Expr.count_tokens {nesting : Nat} {expr : Expr} (conforms : expr.Conforms nesting) :
    (expr.tokens.map Token.kind).count .leftParen = expr.groups := by
  cases expr with
  | mk term quantifier =>
    cases quantifier with
    | none => exact Term.count_tokens conforms.1
    | some quantifier =>
      obtain ⟨agrees, marks⟩ := conforms.2 quantifier rfl
      have none : (quantifier.tokens.map Token.kind).count .leftParen = 0 := by
        rw [List.count_eq_zero, Quantifier.tokens]
        cases repeated : quantifier.repetition <;> cases marked : quantifier.lazy <;>
          simp_all [Repetition.operatorKind]
      rw [Expr.tokens, List.map_append, List.count_append, none, Term.count_tokens conforms.1,
        Expr.groups, Nat.add_zero]

/-- A term has a group for each of its opening parentheses. -/
theorem Term.count_tokens {nesting : Nat} {term : Term} (conforms : term.Conforms nesting) :
    (term.tokens.map Token.kind).count .leftParen = term.groups := by
  cases term with
  | atom token => rcases conforms with kind | kind | kind <;> simp [Term.tokens, kind, Term.groups]
  | group opening regex closing =>
    obtain ⟨opens, closes, fewer, -, body⟩ := conforms
    simp [Term.tokens, Term.groups, opens, closes, Regex.count_tokens body]
  | charClass opening negation members closing =>
    obtain ⟨opens, closes, carets, conform⟩ := conforms
    rw [Term.groups, List.count_eq_zero]
    intro present
    obtain ⟨token, belongs, isParen⟩ := List.mem_map.mp present
    simp only [Term.tokens, List.mem_cons, List.mem_append, Option.mem_toList,
      List.not_mem_nil, or_false] at belongs
    rcases belongs with rfl | marks | inside | rfl
    · simp [opens] at isParen
    · simp [carets token marks] at isParen
    · rcases members.isMember_of_mem_tokens conform inside with kind | kind <;>
        simp [kind] at isParen
    · simp [closes] at isParen

end

/-- The slots of groups that are inside or beside one another. -/
inductive Nested : List Nat → Prop where
  | nil : Nested []
  | group {inner outer : List Nat} (number : Nat) (body : Nested inner) (others : Nested outer) :
      Nested (2 * number :: (inner ++ (2 * number + 1) :: outer))

/-- Nested slots in a row are nested. -/
theorem Nested.append {left right : List Nat} (first : Nested left) (second : Nested right) :
    Nested (left ++ right) := by
  induction first with
  | nil => exact second
  | group number body others _ inductionHypothesis =>
    simpa using Nested.group number body inductionHypothesis

/-- The slots are those of `count` groups from the number `first` on, each once and nested. -/
structure Numbered (first count : Nat) (slots : List Nat) : Prop where
  nested : Nested slots
  once : slots.Perm (List.range' (2 * first) (2 * count))

namespace Numbered

theorem nil (first : Nat) : Numbered first 0 [] := ⟨.nil, .refl _⟩

/-- Groups beside one another are numbered in a row. -/
theorem append {first leftCount rightCount : Nat} {left right : List Nat}
    (front : Numbered first leftCount left) (back : Numbered (first + leftCount) rightCount right) :
    Numbered first (leftCount + rightCount) (left ++ right) := by
  refine ⟨front.nested.append back.nested, (front.once.append back.once).trans ?_⟩
  rw [Nat.mul_add, Nat.mul_add, List.range'_append_1]

/-- A group is numbered before those inside it. -/
theorem group {first count : Nat} {inner : List Nat} (body : Numbered (first + 1) count inner) :
    Numbered first (count + 1) (2 * first :: (inner ++ [2 * first + 1])) := by
  refine ⟨.group first body.nested .nil, ?_⟩
  rw [Nat.mul_add, Nat.mul_one, List.range'_succ, List.range'_succ]
  exact ((List.perm_append_singleton _ _).trans (body.once.cons _)).cons _

end Numbered

/-- The slots that a block writes. -/
def Block.saves (block : Block) : List Nat := (Block.elements block).filterMap Inst.slot?

/-- Blocks in a row write the slots of each. -/
theorem Block.saves_append (left right : Block) :
    Block.saves (left ++ right) = Block.saves left ++ Block.saves right := by
  rw [Block.saves, Block.elements_append, List.filterMap_append, Block.saves, Block.saves]

/-- Only elements write slots. -/
theorem filterMap_slot?_filter (insts : List (Inst Nat)) :
    (insts.filter Inst.isElement).filterMap Inst.slot? = insts.filterMap Inst.slot? := by
  rw [List.filterMap_filter]
  refine List.filterMap_congr fun inst _ => ?_
  cases inst <;> rfl

mutual

/-- The slots of a regex are those of its groups. -/
theorem Regex.numbered (regex : Regex) (first : Nat) :
    Numbered first regex.groups (Block.saves (regex.layout (2 * first))) := by
  cases regex with
  | single sequence => exact sequence.numbered first
  | alternate sequence pipe rest =>
    rw [Regex.layout, Block.saves, elements_alternateLayout, List.filterMap_append,
      ← Nat.mul_add, Regex.groups]
    exact (sequence.numbered first).append (rest.numbered _)

/-- The slots of a sequence are those of its groups. -/
theorem Sequence.numbered (sequence : Sequence) (first : Nat) :
    Numbered first sequence.groups (Block.saves (sequence.layout (2 * first))) := by
  cases sequence with
  | empty => exact .nil first
  | last expr => exact expr.numbered first
  | link expr tail =>
    rw [Sequence.layout, Block.saves_append, ← Nat.mul_add, Sequence.groups]
    exact (expr.numbered first).append (tail.numbered _)

/-- The slots of an expression are those of its groups. -/
theorem Expr.numbered (expr : Expr) (first : Nat) :
    Numbered first expr.groups (Block.saves (expr.layout (2 * first))) := by
  cases expr with
  | mk term quantifier =>
    cases quantifier with
    | none => exact term.numbered first
    | some quantifier =>
      rw [Expr.layout, Block.saves, quantifier.elements_layout]
      exact term.numbered first

/-- The slots of a term are those of its groups. -/
theorem Term.numbered (term : Term) (first : Nat) :
    Numbered first term.groups (Block.saves (term.layout (2 * first))) := by
  cases term with
  | atom token =>
    have silent : Block.saves [atomInst token] = [] := by
      rw [atomInst]
      split <;> rfl
    rw [Term.layout, silent]
    exact .nil first
  | group opening regex closing =>
    have around (slot : Nat) (body : Block) :
        Block.saves (.save slot :: (body ++ [.save (slot + 1)])) =
          slot :: (Block.saves body ++ [slot + 1]) := by
      rw [← List.singleton_append, Block.saves_append, Block.saves_append]
      rfl
    rw [Term.layout, around, Term.groups]
    exact (regex.numbered (first + 1)).group
  | charClass opening negation members closing =>
    have silent : Block.saves [classInst negation members] = [] := by cases negation <;> rfl
    rw [Term.layout, silent]
    exact .nil first

end

/-- What compiling keeps of the source. The instructions that stand for something in the
pattern are those of its transcript, in the same order. There are two slots for each
opening parenthesis, each is written by one instruction, and the instructions that write
them are nested as the groups are. -/
theorem compile_source_order (pattern : String) (program : Program)
    (compiled : compile pattern = .ok program) :
    program.insts.toList.filter Inst.isElement = transcript (patternTokens pattern) ∧
      program.slots = 2 * ((patternTokens pattern).map Token.kind).count .leftParen ∧
      program.saves.Perm (List.range program.slots) ∧ Nested program.saves := by
  obtain ⟨tree, parsed, rfl⟩ := (compile_eq_ok_iff pattern program).mp compiled
  obtain ⟨conforms, canonical, tokens⟩ := (parse_eq_ok_iff pattern tree).mp parsed
  have elements : tree.program.insts.toList.filter Inst.isElement =
      Block.elements (tree.layout 0) := by
    rw [tree.toList_program, List.filter_append, Block.filter_resolved]
    exact List.append_nil _
  have saves : tree.program.saves = Block.saves (tree.layout 0) := by
    rw [Program.saves, ← filterMap_slot?_filter, elements, Block.saves]
  have numbered := tree.numbered 0
  rw [← tokens, elements, saves, tree.slots_program]
  refine ⟨?_, ?_, ?_, numbered.nested⟩
  · have transcribed := Regex.transcribe_tokens conforms canonical 0 [] []
    simpa [transcript, transcribe] using transcribed.symm
  · rw [Regex.count_tokens conforms]
  · simpa [List.range_eq_range'] using numbered.once

/-- Groups inside and beside one another, under a repetition and among alternatives. -/
theorem compile_source_order_groups : ∃ program : Program,
    compile "((a)|[^b-d-])*?(.)" = .ok program ∧
      program.insts.toList.filter Inst.isElement =
        [.save 0, .save 2, .char 'a', .save 3, .noneOf [('b', 'd'), ('-', '-')], .save 1, .save 4,
          .any, .save 5] ∧
      program.slots = 6 ∧ program.saves.Perm (List.range 6) ∧ Nested program.saves := by
  have compiled : compile "((a)|[^b-d-])*?(.)" = .ok _ := rfl
  exact ⟨_, compiled, compile_source_order _ _ compiled⟩

end RegexCompiler
