import RegexCompiler.Tree

/-!
# The grammar of patterns

The grammar speaks of kinds of tokens only. It is stated as derivability of a list
of kinds from a symbol, with one rule for each alternative of each production, and
it does not mention the parser. The bound on nested groups is part of the
judgement: the body of a group is derived with one level fewer to spare.

A syntax tree conforms to the grammar if the tokens at its nodes have the kinds
the productions ask for. Reading the tokens of a conforming tree in order gives a
derivable list, so a conforming tree is a derivation of what it reads. The tree
keeps every token but the `-` of a range, which is put back between the bounds.
-/

namespace RegexCompiler

/-! ### Derivability -/

/-- The symbols of the grammar. -/
inductive Symbol where
  | regex
  | sequence
  | expr
  | term
  | members
  deriving DecidableEq

/-- Kinds that repeat the term before them. -/
def Kind.IsOperator (kind : Kind) : Prop := kind = .plus ∨ kind = .star ∨ kind = .question

/-- Kinds that are a term on their own. -/
def Kind.IsAtom (kind : Kind) : Prop := kind = .literal ∨ kind = .dot ∨ kind = .escape

/-- The list of kinds is derivable from the symbol with at most `nesting` groups
inside one another. -/
inductive Derives : Symbol → Nat → List Kind → Prop where
  | single {nesting : Nat} {kinds : List Kind} (sequence : Derives .sequence nesting kinds) :
      Derives .regex nesting kinds
  | alternate {nesting : Nat} {left right : List Kind} (sequence : Derives .sequence nesting left)
      (rest : Derives .regex nesting right) : Derives .regex nesting (left ++ .pipe :: right)
  | empty {nesting : Nat} : Derives .sequence nesting []
  | link {nesting : Nat} {first others : List Kind} (expr : Derives .expr nesting first)
      (tail : Derives .sequence nesting others) : Derives .sequence nesting (first ++ others)
  | once {nesting : Nat} {kinds : List Kind} (term : Derives .term nesting kinds) :
      Derives .expr nesting kinds
  | repeated {nesting : Nat} {kinds : List Kind} {operator : Kind}
      (term : Derives .term nesting kinds) (repeats : operator.IsOperator) :
      Derives .expr nesting (kinds ++ [operator])
  | repeatedLazily {nesting : Nat} {kinds : List Kind} {operator : Kind}
      (term : Derives .term nesting kinds) (repeats : operator.IsOperator) :
      Derives .expr nesting (kinds ++ [operator, .question])
  | atom {nesting : Nat} {kind : Kind} (isAtom : kind.IsAtom) : Derives .term nesting [kind]
  | group {nesting : Nat} {kinds : List Kind} (regex : Derives .regex nesting kinds) :
      Derives .term (nesting + 1) (.leftParen :: (kinds ++ [.rightParen]))
  | charClass {nesting : Nat} {kinds : List Kind} (members : Derives .members nesting kinds) :
      Derives .term nesting (.leftBracket :: (kinds ++ [.rightBracket]))
  | negatedClass {nesting : Nat} {kinds : List Kind} (members : Derives .members nesting kinds) :
      Derives .term nesting (.leftBracket :: .caret :: (kinds ++ [.rightBracket]))
  | noMember {nesting : Nat} : Derives .members nesting []
  | literal {nesting : Nat} {kinds : List Kind} (others : Derives .members nesting kinds) :
      Derives .members nesting (.literal :: kinds)
  | range {nesting : Nat} {kinds : List Kind} (others : Derives .members nesting kinds) :
      Derives .members nesting (.literal :: .minus :: .literal :: kinds)
  | minus {nesting : Nat} {kinds : List Kind} (others : Derives .members nesting kinds) :
      Derives .members nesting (.minus :: kinds)

/-! ### Tokens of a tree -/

/-- The `-` between the bounds of a range. It fills the gap between them. -/
def rangeMinus (low high : Token) : Token := ⟨.minus, '-', ⟨low.span.stop, high.span.start⟩⟩

/-- The tokens of a member in order. -/
def Member.tokens : Member → List Token
  | .single token => [token]
  | .range low high => [low, rangeMinus low high, high]

/-- The tokens of a chain of members in order. -/
def Members.tokens (members : Members) : List Token := members.toList.flatMap Member.tokens

/-- The tokens of a quantifier in order. -/
def Quantifier.tokens (quantifier : Quantifier) : List Token :=
  quantifier.operator :: quantifier.lazy.toList

mutual

/-- The tokens of a regex in order. -/
def Regex.tokens : Regex → List Token
  | .single sequence => sequence.tokens
  | .alternate sequence pipe rest => sequence.tokens ++ pipe :: rest.tokens

/-- The tokens of a sequence in order. -/
def Sequence.tokens : Sequence → List Token
  | .empty => []
  | .last expr => expr.tokens
  | .link expr tail => expr.tokens ++ tail.tokens

/-- The tokens of an expression in order. -/
def Expr.tokens : Expr → List Token
  | .mk term none => term.tokens
  | .mk term (some quantifier) => term.tokens ++ quantifier.tokens

/-- The tokens of a term in order. -/
def Term.tokens : Term → List Token
  | .atom token => [token]
  | .group opening regex closing => opening :: (regex.tokens ++ [closing])
  | .charClass opening negation members closing =>
    opening :: (negation.toList ++ (members.tokens ++ [closing]))

end

/-! ### Trees that conform to the grammar -/

/-- The kind of operator that stands for a repetition. -/
def Repetition.operatorKind : Repetition → Kind
  | .zeroOrOne => .question
  | .zeroOrMore => .star
  | .oneOrMore => .plus

/-- The repetition agrees with the operator, and the mark that makes it lazy is a
question mark. -/
def Quantifier.Conforms (quantifier : Quantifier) : Prop :=
  quantifier.operator.kind = quantifier.repetition.operatorKind ∧
    ∀ mark ∈ quantifier.lazy, mark.kind = .question

/-- A member is a literal, a `-`, or a range between literals. -/
def Member.Conforms : Member → Prop
  | .single token => token.kind = .literal ∨ token.kind = .minus
  | .range low high => low.kind = .literal ∧ high.kind = .literal

mutual

/-- The tokens of a regex have the kinds the grammar asks for, and at most
`nesting` groups are inside one another. -/
def Regex.Conforms (nesting : Nat) : Regex → Prop
  | .single sequence => sequence.Conforms nesting
  | .alternate sequence pipe rest =>
    sequence.Conforms nesting ∧ pipe.kind = .pipe ∧ rest.Conforms nesting

/-- As for a regex, of a sequence. -/
def Sequence.Conforms (nesting : Nat) : Sequence → Prop
  | .empty => True
  | .last expr => expr.Conforms nesting
  | .link expr tail => expr.Conforms nesting ∧ tail.Conforms nesting

/-- As for a regex, of an expression. -/
def Expr.Conforms (nesting : Nat) : Expr → Prop
  | .mk term quantifier => term.Conforms nesting ∧ ∀ applied ∈ quantifier, applied.Conforms

/-- As for a regex, of a term. The body of a group has one level fewer to spare. -/
def Term.Conforms (nesting : Nat) : Term → Prop
  | .atom token => token.kind.IsAtom
  | .group opening regex closing =>
    opening.kind = .leftParen ∧ closing.kind = .rightParen ∧
      ∃ fewer, nesting = fewer + 1 ∧ regex.Conforms fewer
  | .charClass opening negation members closing =>
    opening.kind = .leftBracket ∧ closing.kind = .rightBracket ∧
      (∀ caret ∈ negation, caret.kind = .caret) ∧ ∀ member ∈ members.toList, member.Conforms

end

/-! ### Conforming trees are derivations -/

/-- Members that conform are derivable in a row. -/
theorem derives_members (nesting : Nat) (members : List Member)
    (conform : ∀ member ∈ members, member.Conforms) :
    Derives .members nesting ((members.flatMap Member.tokens).map Token.kind) := by
  induction members with
  | nil => exact .noMember
  | cons member others inductionHypothesis =>
    have tail := inductionHypothesis fun other present =>
      conform other (List.mem_cons_of_mem _ present)
    have head := conform member List.mem_cons_self
    cases member with
    | single token =>
      simp only [Member.Conforms] at head
      rcases head with literal | minus
      · simpa [Member.tokens, literal] using Derives.literal tail
      · simpa [Member.tokens, minus] using Derives.minus tail
    | range low high =>
      simp only [Member.Conforms] at head
      simpa [Member.tokens, rangeMinus, head.1, head.2] using Derives.range tail

/-- The operator of every repetition is one of the grammar. -/
theorem Repetition.operatorKind_isOperator (repetition : Repetition) :
    repetition.operatorKind.IsOperator := by
  cases repetition with
  | zeroOrOne => exact .inr (.inr rfl)
  | zeroOrMore => exact .inr (.inl rfl)
  | oneOrMore => exact .inl rfl

mutual

/-- A conforming regex derives the kinds of its tokens. -/
theorem Regex.Conforms.derives {nesting : Nat} {regex : Regex} (conforms : regex.Conforms nesting) :
    Derives .regex nesting (regex.tokens.map Token.kind) := by
  cases regex with
  | single sequence =>
    exact .single (Sequence.Conforms.derives (by simpa [Regex.Conforms] using conforms))
  | alternate sequence pipe rest =>
    simp only [Regex.Conforms] at conforms
    obtain ⟨first, isPipe, others⟩ := conforms
    simpa [Regex.tokens, isPipe] using
      Derives.alternate (Sequence.Conforms.derives first) (Regex.Conforms.derives others)

/-- A conforming sequence derives the kinds of its tokens. -/
theorem Sequence.Conforms.derives {nesting : Nat} {sequence : Sequence}
    (conforms : sequence.Conforms nesting) :
    Derives .sequence nesting (sequence.tokens.map Token.kind) := by
  cases sequence with
  | empty => exact .empty
  | last expr =>
    simp only [Sequence.Conforms] at conforms
    simpa [Sequence.tokens] using Derives.link (Expr.Conforms.derives conforms) .empty
  | link expr tail =>
    simp only [Sequence.Conforms] at conforms
    simpa [Sequence.tokens] using
      Derives.link (Expr.Conforms.derives conforms.1) (Sequence.Conforms.derives conforms.2)

/-- A conforming expression derives the kinds of its tokens. -/
theorem Expr.Conforms.derives {nesting : Nat} {expr : Expr} (conforms : expr.Conforms nesting) :
    Derives .expr nesting (expr.tokens.map Token.kind) := by
  cases expr with
  | mk term quantifier =>
    simp only [Expr.Conforms] at conforms
    have inner := Term.Conforms.derives conforms.1
    cases quantifier with
    | none => exact .once inner
    | some quantifier =>
      obtain ⟨agrees, marks⟩ := conforms.2 quantifier rfl
      have repeats : quantifier.operator.kind.IsOperator :=
        agrees ▸ quantifier.repetition.operatorKind_isOperator
      cases marked : quantifier.lazy with
      | none => simpa [Expr.tokens, Quantifier.tokens, marked] using inner.repeated repeats
      | some mark =>
        have question : mark.kind = .question := marks mark marked
        simpa [Expr.tokens, Quantifier.tokens, marked, question] using
          inner.repeatedLazily repeats

/-- A conforming term derives the kinds of its tokens. -/
theorem Term.Conforms.derives {nesting : Nat} {term : Term} (conforms : term.Conforms nesting) :
    Derives .term nesting (term.tokens.map Token.kind) := by
  cases term with
  | atom token => exact .atom (by simpa [Term.Conforms] using conforms)
  | group opening regex closing =>
    simp only [Term.Conforms] at conforms
    obtain ⟨opens, closes, fewer, rfl, body⟩ := conforms
    simpa [Term.tokens, opens, closes] using Derives.group (Regex.Conforms.derives body)
  | charClass opening negation members closing =>
    simp only [Term.Conforms] at conforms
    obtain ⟨opens, closes, carets, conform⟩ := conforms
    have inner := derives_members nesting members.toList conform
    cases negation with
    | none => simpa [Term.tokens, Members.tokens, opens, closes] using inner.charClass
    | some caret =>
      have negates : caret.kind = .caret := carets caret rfl
      simpa [Term.tokens, Members.tokens, opens, closes, negates] using inner.negatedClass

end

end RegexCompiler
