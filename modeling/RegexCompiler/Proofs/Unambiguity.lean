import RegexCompiler.Compiled
import RegexCompiler.Proofs.Acceptance
import RegexCompiler.Proofs.Canonical

/-!
# Tokens determine the tree

No two canonical trees of the grammar have the same tokens. Tokens are compared from the
left, with whatever stands behind them: a term shows by its first token what it is and by
itself where it ends, an expression ends where no operator follows, a sequence where `|`
or `)` does, and a regex where `)` does or nothing is left. So two trees in front of what
may follow them agree on where they end, and their parts agree one after the other.

As parsing builds canonical trees of the grammar and loses no token, this characterizes
it: the tree of a pattern is the only canonical tree with the tokens of the pattern. A
statement about the parse of a text then asks for a tree and no longer for a run.
-/

namespace RegexCompiler

/-- The first of the tokens, if there is one, is of an allowed kind. -/
def LedBy (allowed : Kind → Prop) (tokens : List Token) : Prop :=
  ∀ token ∈ tokens.head?, allowed token.kind

/-- The tokens of an expression begin as a term does. -/
theorem Expr.Conforms.tokens_eq_cons {nesting : Nat} {expr : Expr}
    (conforms : expr.Conforms nesting) :
    ∃ token others, expr.tokens = token :: others ∧ token.kind.StartsTerm := by
  obtain ⟨kind, kinds, split, starts⟩ := conforms.derives.shapes
  obtain ⟨token, others, same, rfl, _⟩ := List.map_eq_cons_iff.mp split
  exact ⟨token, others, same, starts⟩

/-- The tokens of a sequence begin as a term does, unless it is empty. -/
theorem Sequence.Conforms.tokens_eq_cons {nesting : Nat} {sequence : Sequence}
    (conforms : sequence.Conforms nesting) (filled : sequence ≠ .empty) :
    ∃ token others, sequence.tokens = token :: others ∧ token.kind.StartsTerm := by
  cases sequence with
  | empty => exact absurd rfl filled
  | last expr => exact Expr.Conforms.tokens_eq_cons conforms
  | link expr tail =>
    simp only [Sequence.Conforms] at conforms
    obtain ⟨token, others, same, starts⟩ := conforms.1.tokens_eq_cons
    exact ⟨token, others ++ tail.tokens, by simp [Sequence.tokens, same], starts⟩

/-- A sequence that is not empty cannot begin where a sequence ends. -/
theorem Sequence.Conforms.not_ended {nesting : Nat} {sequence : Sequence}
    (conforms : sequence.Conforms nesting) (filled : sequence ≠ .empty) (behind : List Token) :
    ¬ LedBy (fun kind => Parser.endsSequence kind = true) (sequence.tokens ++ behind) := by
  intro ends
  obtain ⟨token, others, same, starts⟩ := conforms.tokens_eq_cons filled
  have ended := ends token (by simp [same])
  simp [Parser.endsSequence_of_startsTerm starts] at ended

/-- No operator is first where a sequence ends. -/
theorem LedBy.noOperator {tokens : List Token}
    (ends : LedBy (fun kind => Parser.endsSequence kind = true) tokens) :
    LedBy (fun kind => Parser.repetition? kind = none) tokens :=
  fun token isHead => Parser.repetition?_of_endsSequence (ends token isHead)

/-- No operator is first where a sequence goes on or ends. -/
theorem Sequence.Conforms.noOperator {nesting : Nat} {sequence : Sequence}
    (conforms : sequence.Conforms nesting) (behind : List Token)
    (ends : LedBy (fun kind => Parser.endsSequence kind = true) behind) :
    LedBy (fun kind => Parser.repetition? kind = none) (sequence.tokens ++ behind) := by
  intro token isHead
  by_cases filled : sequence = .empty
  · subst filled
    exact ends.noOperator token isHead
  · obtain ⟨first, others, same, starts⟩ := conforms.tokens_eq_cons filled
    obtain rfl : first = token := by simpa [same] using isHead
    exact Parser.repetition?_of_startsTerm starts

/-- Canonical members in front of closing brackets agree. -/
theorem Members.eq_of_tokens {left right : Members}
    (conform : ∀ member ∈ left.toList, member.Conforms)
    (conform' : ∀ member ∈ right.toList, member.Conforms) (canonical : left.Canonical)
    (canonical' : right.Canonical) {closing closing' : Token} {rest rest' : List Token}
    (closes : closing.kind = .rightBracket) (closes' : closing'.kind = .rightBracket)
    (same : left.tokens ++ closing :: rest = right.tokens ++ closing' :: rest') :
    left = right ∧ closing = closing' ∧ rest = rest' := by
  let isMember := fun token : Token => decide token.kind.IsMember
  have inside {members : Members} (conform : ∀ member ∈ members.toList, member.Conforms) :
      ∀ token ∈ members.tokens, isMember token = true := by
    intro token present
    obtain ⟨member, listed, held⟩ := List.mem_flatMap.mp present
    exact decide_eq_true (Parser.isMember_of_mem_tokens (conform member listed) token held)
  have outside {closing : Token} (closes : closing.kind = .rightBracket) :
      ¬ isMember closing = true := by
    simp [isMember, closes, Kind.IsMember]
  have tokens := congrArg (List.takeWhile isMember) same
  have others := congrArg (List.dropWhile isMember) same
  rw [List.takeWhile_append_of_pos (inside conform), List.takeWhile_append_of_pos (inside conform'),
    List.takeWhile_cons_of_neg (outside closes), List.takeWhile_cons_of_neg (outside closes'),
    List.append_nil, List.append_nil] at tokens
  rw [List.dropWhile_append_of_pos (inside conform), List.dropWhile_append_of_pos (inside conform'),
    List.dropWhile_cons_of_neg (outside closes), List.dropWhile_cons_of_neg (outside closes')]
    at others
  have lists : left.toList = right.toList := by
    rw [← segments_tokens _ conform canonical.2, ← segments_tokens _ conform' canonical'.2]
    exact congrArg segments tokens
  refine ⟨?_, List.cons.inj others⟩
  rw [canonical.1, canonical'.1, lists]

/-- A repetition is known from its operator. -/
theorem Repetition.eq_of_operatorKind {left right : Repetition}
    (same : left.operatorKind = right.operatorKind) : left = right := by
  cases left <;> cases right <;> first | rfl | simp [Repetition.operatorKind] at same

/-- An operator is not what may follow an expression. -/
theorem Quantifier.Conforms.repetition? {quantifier : Quantifier}
    (conforms : quantifier.Conforms) :
    Parser.repetition? quantifier.operator.kind = some quantifier.repetition := by
  rw [conforms.1]
  cases quantifier.repetition <;> rfl

/-- Quantifiers that may be missing agree in front of what may follow an expression. -/
theorem Quantifier.eq_of_tokens {left right : Option Quantifier}
    (conform : ∀ applied ∈ left, applied.Conforms) (conform' : ∀ applied ∈ right, applied.Conforms)
    {rest rest' : List Token}
    (ends : LedBy (fun kind => Parser.repetition? kind = none) rest)
    (ends' : LedBy (fun kind => Parser.repetition? kind = none) rest')
    (same : left.toList.flatMap Quantifier.tokens ++ rest =
      right.toList.flatMap Quantifier.tokens ++ rest') : left = right ∧ rest = rest' := by
  -- what may follow an expression is neither an operator nor a mark that makes one lazy
  have noOperator {applied : Quantifier} {behind follow : List Token} (conforms : applied.Conforms)
      (ends : LedBy (fun kind => Parser.repetition? kind = none) follow)
      (same : follow = applied.operator :: behind) : False := by
    have free := ends applied.operator (by simp [same])
    simp [conforms.repetition?] at free
  have noMark {mark : Token} {behind follow : List Token} (question : mark.kind = .question)
      (ends : LedBy (fun kind => Parser.repetition? kind = none) follow)
      (same : follow = mark :: behind) : False := by
    have free := ends mark (by simp [same])
    simp [question, Parser.repetition?] at free
  cases left with
  | none =>
    cases right with
    | none => exact ⟨rfl, same⟩
    | some applied => exact (noOperator (conform' applied rfl) ends same).elim
  | some applied =>
    cases right with
    | none => exact (noOperator (conform applied rfl) ends' same.symm).elim
    | some applied' =>
      obtain ⟨repetition, operator, mark⟩ := applied
      obtain ⟨repetition', operator', mark'⟩ := applied'
      obtain ⟨agrees, marks⟩ := conform _ rfl
      obtain ⟨agrees', marks'⟩ := conform' _ rfl
      simp only [Option.toList_some, List.flatMap_cons, List.flatMap_nil, List.append_nil,
        Quantifier.tokens, List.cons_append, List.cons.injEq] at same
      obtain ⟨rfl, same⟩ := same
      obtain rfl := Repetition.eq_of_operatorKind (agrees.symm.trans agrees')
      cases mark with
      | none =>
        cases mark' with
        | none => exact ⟨rfl, same⟩
        | some found => exact (noMark (marks' found rfl) ends same).elim
      | some found =>
        cases mark' with
        | none => exact (noMark (marks found rfl) ends' same.symm).elim
        | some found' =>
          obtain ⟨rfl, rfl⟩ := List.cons.inj same
          exact ⟨rfl, rfl⟩

/-- The tokens of an expression are those of its term and of its quantifier. -/
theorem Expr.tokens_mk (term : Term) (quantifier : Option Quantifier) :
    (Expr.mk term quantifier).tokens =
      term.tokens ++ quantifier.toList.flatMap Quantifier.tokens := by
  cases quantifier <;> simp [Expr.tokens]

/-- Character classes are told apart by whether a caret follows the bracket. -/
theorem negation_eq_of_tokens {negation negation' : Option Token}
    (carets : ∀ caret ∈ negation, caret.kind = .caret)
    (carets' : ∀ caret ∈ negation', caret.kind = .caret) {inner inner' : List Token}
    (plain : LedBy (· ≠ .caret) inner) (plain' : LedBy (· ≠ .caret) inner')
    (same : negation.toList ++ inner = negation'.toList ++ inner') :
    negation = negation' ∧ inner = inner' := by
  match negation, negation' with
  | none, none => exact ⟨rfl, same⟩
  | none, some caret =>
    have same : inner = caret :: inner' := same
    exact absurd (carets' caret rfl) (plain caret (by simp [same]))
  | some caret, none =>
    have same : caret :: inner = inner' := same
    exact absurd (carets caret rfl) (plain' caret (by simp [← same]))
  | some caret, some caret' =>
    obtain ⟨rfl, rfl⟩ := List.cons.inj same
    exact ⟨rfl, rfl⟩

/-- The tokens of conforming members may stand between brackets. -/
theorem Members.isMember_of_mem_tokens {members : Members}
    (conform : ∀ member ∈ members.toList, member.Conforms) {token : Token}
    (present : token ∈ members.tokens) : token.kind.IsMember := by
  obtain ⟨member, listed, held⟩ := List.mem_flatMap.mp present
  exact Parser.isMember_of_mem_tokens (conform member listed) token held

/-- Members in front of a closing bracket begin with no caret. -/
theorem Members.ledBy_tokens {members : Members}
    (conform : ∀ member ∈ members.toList, member.Conforms) {closing : Token}
    (closes : closing.kind = .rightBracket) (rest : List Token) :
    LedBy (· ≠ .caret) (members.tokens ++ closing :: rest) := by
  intro token isHead negates
  cases split : members.tokens with
  | nil =>
    obtain rfl : closing = token := by simpa [split] using isHead
    simp [closes] at negates
  | cons first others =>
    obtain rfl : first = token := by simpa [split] using isHead
    have inside := members.isMember_of_mem_tokens conform (split ▸ List.mem_cons_self)
    simp [negates, Kind.IsMember] at inside

mutual

/-- Canonical regexes in front of what may follow them agree. -/
theorem Regex.eq_of_tokens {nesting nesting' : Nat} {left right : Regex}
    (conforms : left.Conforms nesting) (conforms' : right.Conforms nesting')
    (canonical : left.Canonical) (canonical' : right.Canonical) {rest rest' : List Token}
    (closed : LedBy (· = .rightParen) rest) (closed' : LedBy (· = .rightParen) rest')
    (same : left.tokens ++ rest = right.tokens ++ rest') : left = right ∧ rest = rest' := by
  have ends {rest : List Token} (closed : LedBy (· = .rightParen) rest) :
      LedBy (fun kind => Parser.endsSequence kind = true) rest := by
    intro token isHead
    simp [closed token isHead, Parser.endsSequence]
  have endsAtPipe {pipe : Token} (isPipe : pipe.kind = .pipe) (behind : List Token) :
      LedBy (fun kind => Parser.endsSequence kind = true) (pipe :: behind) := by
    intro token isHead
    obtain rfl : pipe = token := by simpa using isHead
    simp [isPipe, Parser.endsSequence]
  have noPipe {pipe : Token} {behind follow : List Token} (isPipe : pipe.kind = .pipe)
      (closed : LedBy (· = .rightParen) follow) (same : follow = pipe :: behind) : False := by
    have closes := closed pipe (by simp [same])
    simp [isPipe] at closes
  cases left with
  | single sequence =>
    cases right with
    | single sequence' =>
      obtain ⟨rfl, rfl⟩ := Sequence.eq_of_tokens conforms conforms' canonical canonical'
        (ends closed) (ends closed') same
      exact ⟨rfl, rfl⟩
    | alternate sequence' pipe' more' =>
      simp only [Regex.Conforms, Regex.Canonical, Regex.tokens, List.append_assoc,
        List.cons_append] at conforms' canonical' same
      obtain ⟨_, follows⟩ := Sequence.eq_of_tokens conforms conforms'.1 canonical canonical'.1
        (ends closed) (endsAtPipe conforms'.2.1 _) same
      exact (noPipe conforms'.2.1 closed follows).elim
  | alternate sequence pipe more =>
    simp only [Regex.Conforms, Regex.Canonical, Regex.tokens, List.append_assoc,
      List.cons_append] at conforms canonical same
    cases right with
    | single sequence' =>
      obtain ⟨_, follows⟩ := Sequence.eq_of_tokens conforms.1 conforms' canonical.1 canonical'
        (endsAtPipe conforms.2.1 _) (ends closed') same
      exact (noPipe conforms.2.1 closed' follows.symm).elim
    | alternate sequence' pipe' more' =>
      simp only [Regex.Conforms, Regex.Canonical, Regex.tokens, List.append_assoc,
        List.cons_append] at conforms' canonical' same
      obtain ⟨rfl, follows⟩ := Sequence.eq_of_tokens conforms.1 conforms'.1 canonical.1
        canonical'.1 (endsAtPipe conforms.2.1 _) (endsAtPipe conforms'.2.1 _) same
      obtain ⟨rfl, others⟩ := List.cons.inj follows
      obtain ⟨rfl, rfl⟩ := Regex.eq_of_tokens conforms.2.2 conforms'.2.2 canonical.2 canonical'.2
        closed closed' others
      exact ⟨rfl, rfl⟩
termination_by structural left

/-- Canonical sequences in front of what may follow them agree. -/
theorem Sequence.eq_of_tokens {nesting nesting' : Nat} {left right : Sequence}
    (conforms : left.Conforms nesting) (conforms' : right.Conforms nesting')
    (canonical : left.Canonical) (canonical' : right.Canonical) {rest rest' : List Token}
    (ends : LedBy (fun kind => Parser.endsSequence kind = true) rest)
    (ends' : LedBy (fun kind => Parser.endsSequence kind = true) rest')
    (same : left.tokens ++ rest = right.tokens ++ rest') : left = right ∧ rest = rest' := by
  cases left with
  | empty =>
    by_cases filled : right = .empty
    · subst filled
      exact ⟨rfl, same⟩
    · exact absurd (same ▸ ends) (conforms'.not_ended filled rest')
  | last expr =>
    simp only [Sequence.Conforms, Sequence.Canonical, Sequence.tokens] at conforms canonical same
    cases right with
    | empty =>
      have whole : (Sequence.last expr).Conforms nesting := conforms
      exact absurd (same ▸ ends') (whole.not_ended (by simp) rest)
    | last expr' =>
      obtain ⟨rfl, rfl⟩ := Expr.eq_of_tokens conforms conforms' canonical canonical'
        ends.noOperator ends'.noOperator same
      exact ⟨rfl, rfl⟩
    | link expr' tail' =>
      simp only [Sequence.Conforms, Sequence.Canonical, Sequence.tokens, List.append_assoc]
        at conforms' canonical' same
      obtain ⟨_, follows⟩ := Expr.eq_of_tokens conforms conforms'.1 canonical canonical'.1
        ends.noOperator (conforms'.2.noOperator rest' ends') same
      exact absurd (follows ▸ ends) (conforms'.2.not_ended canonical'.2.1 rest')
  | link expr tail =>
    simp only [Sequence.Conforms, Sequence.Canonical, Sequence.tokens, List.append_assoc]
      at conforms canonical same
    cases right with
    | empty =>
      have whole : (Sequence.link expr tail).Conforms nesting := conforms
      have filled := whole.not_ended (by simp) rest
      rw [Sequence.tokens, List.append_assoc] at filled
      exact absurd (same ▸ ends') filled
    | last expr' =>
      obtain ⟨_, follows⟩ := Expr.eq_of_tokens conforms.1 conforms' canonical.1 canonical'
        (conforms.2.noOperator rest ends) ends'.noOperator same
      exact absurd (follows ▸ ends') (conforms.2.not_ended canonical.2.1 rest)
    | link expr' tail' =>
      simp only [Sequence.Conforms, Sequence.Canonical, Sequence.tokens, List.append_assoc]
        at conforms' canonical' same
      obtain ⟨rfl, follows⟩ := Expr.eq_of_tokens conforms.1 conforms'.1 canonical.1 canonical'.1
        (conforms.2.noOperator rest ends) (conforms'.2.noOperator rest' ends') same
      obtain ⟨rfl, rfl⟩ := Sequence.eq_of_tokens conforms.2 conforms'.2 canonical.2.2
        canonical'.2.2 ends ends' follows
      exact ⟨rfl, rfl⟩
termination_by structural left

/-- Canonical expressions in front of what may follow them agree. -/
theorem Expr.eq_of_tokens {nesting nesting' : Nat} {left right : Expr}
    (conforms : left.Conforms nesting) (conforms' : right.Conforms nesting')
    (canonical : left.Canonical) (canonical' : right.Canonical) {rest rest' : List Token}
    (ends : LedBy (fun kind => Parser.repetition? kind = none) rest)
    (ends' : LedBy (fun kind => Parser.repetition? kind = none) rest')
    (same : left.tokens ++ rest = right.tokens ++ rest') : left = right ∧ rest = rest' := by
  cases left with
  | mk term quantifier =>
    cases right with
    | mk term' quantifier' =>
      simp only [Expr.Conforms, Expr.tokens_mk, List.append_assoc] at conforms conforms' same
      obtain ⟨rfl, follows⟩ := Term.eq_of_tokens conforms.1 conforms'.1 canonical canonical' same
      obtain ⟨rfl, rfl⟩ := Quantifier.eq_of_tokens conforms.2 conforms'.2 ends ends' follows
      exact ⟨rfl, rfl⟩
termination_by structural left

/-- Canonical terms agree, whatever follows them. -/
theorem Term.eq_of_tokens {nesting nesting' : Nat} {left right : Term}
    (conforms : left.Conforms nesting) (conforms' : right.Conforms nesting')
    (canonical : left.Canonical) (canonical' : right.Canonical) {rest rest' : List Token}
    (same : left.tokens ++ rest = right.tokens ++ rest') : left = right ∧ rest = rest' := by
  cases left with
  | atom token =>
    cases right with
    | atom token' =>
      obtain ⟨rfl, rfl⟩ := List.cons.inj same
      exact ⟨rfl, rfl⟩
    | group opening regex closing =>
      simp_all [Term.tokens, Term.Conforms, Kind.IsAtom]
    | charClass opening negation members closing =>
      simp_all [Term.tokens, Term.Conforms, Kind.IsAtom]
  | group opening regex closing =>
    cases right with
    | atom token' => simp_all [Term.tokens, Term.Conforms, Kind.IsAtom]
    | group opening' regex' closing' =>
      simp only [Term.Conforms, Term.Canonical, Term.tokens, List.cons_append, List.append_assoc,
        List.nil_append] at conforms conforms' canonical canonical' same
      obtain ⟨_, closes, fewer, _, body⟩ := conforms
      obtain ⟨_, closes', fewer', _, body'⟩ := conforms'
      obtain ⟨rfl, others⟩ := List.cons.inj same
      obtain ⟨rfl, follows⟩ := Regex.eq_of_tokens body body' canonical canonical'
        (by simpa [LedBy] using closes) (by simpa [LedBy] using closes') others
      obtain ⟨rfl, rfl⟩ := List.cons.inj follows
      exact ⟨rfl, rfl⟩
    | charClass opening' negation' members' closing' => simp_all [Term.tokens, Term.Conforms]
  | charClass opening negation members closing =>
    cases right with
    | atom token' => simp_all [Term.tokens, Term.Conforms, Kind.IsAtom]
    | group opening' regex' closing' => simp_all [Term.tokens, Term.Conforms]
    | charClass opening' negation' members' closing' =>
      simp only [Term.Conforms, Term.Canonical, Term.tokens, List.cons_append, List.append_assoc,
        List.nil_append] at conforms conforms' canonical canonical' same
      obtain ⟨_, closes, carets, conform⟩ := conforms
      obtain ⟨_, closes', carets', conform'⟩ := conforms'
      obtain ⟨rfl, others⟩ := List.cons.inj same
      obtain ⟨rfl, inner⟩ := negation_eq_of_tokens carets carets'
        (Members.ledBy_tokens conform closes rest) (Members.ledBy_tokens conform' closes' rest')
        others
      obtain ⟨rfl, rfl, rfl⟩ := Members.eq_of_tokens conform conform' canonical canonical' closes
        closes' inner
      exact ⟨rfl, rfl⟩
termination_by structural left

end

/-- Parsing a pattern yields the canonical tree of the grammar that has the tokens of the
pattern, and fails if there is none. -/
theorem parse_eq_ok_iff (pattern : String) (tree : Regex) :
    parse pattern = .ok tree ↔
      tree.Conforms nestingLimit ∧ tree.Canonical ∧ tree.tokens = patternTokens pattern := by
  have parsed {tree : Regex} (accepted : parse pattern = .ok tree) :
      tree.Conforms nestingLimit ∧ tree.Canonical ∧ tree.tokens = patternTokens pattern := by
    obtain ⟨stop, replied⟩ := (parseWithin_eq_ok_iff _ pattern tree).mp accepted
    obtain ⟨conforms, tokens⟩ := Parser.pattern_spells _ _ _ _ _ replied
    exact ⟨conforms, Parser.pattern_canonical replied, tokens⟩
  refine ⟨parsed, ?_⟩
  rintro ⟨conforms, canonical, tokens⟩
  obtain ⟨found, accepted⟩ := exists_parse_of_derives (tokens ▸ conforms.derives)
  obtain ⟨conforms', canonical', tokens'⟩ := parsed accepted
  have ended : LedBy (· = .rightParen) [] := by simp [LedBy]
  obtain ⟨rfl, _⟩ := Regex.eq_of_tokens conforms' conforms canonical' canonical ended ended
    (by rw [tokens', tokens])
  exact accepted

/-- Compiling a pattern yields the program of its tree. -/
theorem compile_eq_ok_iff (pattern : String) (program : Program) :
    compile pattern = .ok program ↔
      ∃ tree, parse pattern = .ok tree ∧ tree.program = program := by
  rw [compile, Compiled.ofPattern]
  cases parse pattern <;> simp [Except.map]

end RegexCompiler
