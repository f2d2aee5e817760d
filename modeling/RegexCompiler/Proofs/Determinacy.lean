import RegexCompiler.Proofs.TokenStream
import RegexCompiler.Parser

/-!
# Parsing depends on the tokens alone

Two cursors are alike if the same tokens are ahead of them and the same number of groups
is open. They may differ in the text behind those tokens and in whether a token was put
back. Rules cannot tell cursors apart that are alike, whatever the fuel they have: where
both replies are verdicts, both accept the same value and stop alike, or both reject with
the same error. In particular the parse of a pattern is fixed by its tokens and its end.
-/

namespace RegexCompiler

namespace Parser

/-- The same tokens are ahead and the same number of groups is open. -/
structure Cursor.Alike (left right : Cursor) : Prop where
  stream_eq : left.stream = right.stream
  depth_eq : left.depth = right.depth

namespace Cursor.Alike

variable {left right : Cursor}

/-- Cursors that are alike stand on the same token. -/
theorem token_eq (alike : left.Alike right) : left.token = right.token :=
  (List.cons.inj alike.stream_eq).1

/-- A step over a token other than the end of input keeps cursors alike. -/
theorem advance (alike : left.Alike right) (live : left.token.kind ≠ .endOfInput) :
    left.advance.Alike right.advance := by
  have streams := alike.stream_eq
  rw [left.stream_eq_cons live, right.stream_eq_cons (alike.token_eq ▸ live)] at streams
  exact ⟨(List.cons.inj streams).2, alike.depth_eq⟩

/-- An optional token is stepped over by both cursors or by none. -/
theorem accept (alike : left.Alike right) (kind : Kind) (live : kind ≠ .endOfInput) :
    (left.accept kind).1 = (right.accept kind).1 ∧
      (left.accept kind).2.Alike (right.accept kind).2 := by
  have same := alike.token_eq
  by_cases found : left.token.kind = kind
  · simp only [Cursor.accept, ← same, if_pos found]
    exact ⟨trivial, alike.advance (found ▸ live)⟩
  · simp only [Cursor.accept, ← same, if_neg found]
    exact ⟨trivial, alike⟩

end Cursor.Alike

/-- Unless one of the replies breaks down, they are the same verdict, and where they
accept they stop near each other. -/
def Reply.Matches {α : Type} (near : Cursor → Cursor → Prop) : Reply α → Reply α → Prop
  | .accepted value after, .accepted other stop => value = other ∧ near after stop
  | .rejected error _, .rejected other _ => error = other
  | .broken _, _ => True
  | _, .broken _ => True
  | _, _ => False

namespace Reply.Matches

variable {α β : Type} {near close : Cursor → Cursor → Prop}

theorem broken_left (fault : Fault) (reply : Reply α) : Matches near (.broken fault) reply := by
  cases reply <;> trivial

theorem broken_right (fault : Fault) (reply : Reply α) : Matches near reply (.broken fault) := by
  cases reply <;> trivial

/-- Rules that match one after the other match as a whole. -/
theorem andThen {left right : Reply α} {proceed proceed' : α → Cursor → Reply β}
    (first : Matches near left right)
    (next : ∀ value after stop, near after stop →
      Matches close (proceed value after) (proceed' value stop)) :
    Matches close (left.andThen proceed) (right.andThen proceed') := by
  cases left with
  | broken fault => exact broken_left fault _
  | accepted value after =>
    cases right with
    | broken fault => exact broken_right fault _
    | accepted other stop =>
      obtain ⟨rfl, together⟩ := first
      exact next value after stop together
    | rejected error stop => exact first.elim
  | rejected error stop =>
    cases right with
    | broken fault => exact broken_right fault _
    | accepted other stop => exact first.elim
    | rejected other halt => exact first

/-- Matching replies that are verdicts give the same verdict. -/
theorem verdict_eq {left right : Reply α} (same : Matches near left right)
    (settled : left.isSettled = true) (settled' : right.isSettled = true) :
    left.verdict settled = right.verdict settled' := by
  cases left with
  | broken fault => simp [isSettled] at settled
  | accepted value after =>
    cases right with
    | broken fault => simp [isSettled] at settled'
    | accepted other stop => exact congrArg _ same.1
    | rejected error stop => exact same.elim
  | rejected error stop =>
    cases right with
    | broken fault => simp [isSettled] at settled'
    | accepted other stop => exact same.elim
    | rejected other halt => exact congrArg _ same

end Reply.Matches

/-- A required token is stepped over by both cursors, or rejected at both. -/
theorem Cursor.Alike.expect {left right : Cursor} (alike : left.Alike right) (kind : Kind)
    (live : kind ≠ .endOfInput) :
    Reply.Matches Cursor.Alike (left.expect kind) (right.expect kind) := by
  have same := alike.token_eq
  by_cases found : left.token.kind = kind
  · simp only [Cursor.expect, ← same, if_pos found]
    exact ⟨rfl, alike.advance (found ▸ live)⟩
  · simp only [Cursor.expect, ← same, if_neg found]
    rfl

/-- Reading a quantifier does not tell cursors apart. -/
theorem Cursor.Alike.quantify {left right : Cursor} (alike : left.Alike right) (term : Term) :
    Reply.Matches Cursor.Alike (.accepted (quantify term left).1 (quantify term left).2)
      (.accepted (quantify term right).1 (quantify term right).2) := by
  have same := alike.token_eq
  cases stands : repetition? left.token.kind with
  | none =>
    simp only [Parser.quantify, ← same, stands]
    exact ⟨rfl, alike⟩
  | some repetition =>
    have live : left.token.kind ≠ .endOfInput := by
      intro ended
      simp [ended, repetition?] at stands
    obtain ⟨marks, behind⟩ := (alike.advance live).accept .question (by decide)
    simp only [Parser.quantify, ← same, stands, marks]
    exact ⟨rfl, behind⟩

/-- Reading a member that begins with a literal does not tell cursors apart. The slot
behind the third token is free on both sides, so a `-` can be put back. -/
theorem Cursor.Alike.literalMember {left right : Cursor} (alike : left.Alike right)
    (literal : left.token.kind = .literal) :
    Reply.Matches Cursor.Alike (literalMember left) (literalMember right) := by
  have same := alike.token_eq
  have second := alike.advance (by simp [literal])
  by_cases minus : left.advance.token.kind = .minus
  · have third := second.advance (by simp [minus])
    by_cases high : left.advance.advance.token.kind = .literal
    · simp only [Parser.literalMember, ← same, ← second.token_eq, ← third.token_eq, if_pos minus,
        if_pos high]
      exact ⟨rfl, third.advance (by simp [high])⟩
    · obtain ⟨back, restored, _, stream, depth⟩ := left.advance.advance.unget_stream
        left.advance.token left.advance.advance_held (by simp [minus])
      obtain ⟨back', restored', _, stream', depth'⟩ := right.advance.advance.unget_stream
        left.advance.token right.advance.advance_held (by simp [minus])
      simp only [Parser.literalMember, ← same, ← second.token_eq, ← third.token_eq, if_pos minus,
        if_neg high, restored, restored']
      refine ⟨rfl, ?_, ?_⟩
      · rw [stream, stream', third.stream_eq]
      · rw [depth, depth', third.depth_eq]
  · simp only [Parser.literalMember, ← same, ← second.token_eq, if_neg minus]
    exact ⟨rfl, second⟩

/-- Reading members does not tell cursors apart. -/
theorem Cursor.Alike.members {left right : Cursor} (alike : left.Alike right) (fuel fuel' : Nat)
    (found : List Member) :
    Reply.Matches Cursor.Alike (members fuel found left) (members fuel' found right) := by
  induction fuel generalizing fuel' found left right with
  | zero => exact Reply.Matches.broken_left _ _
  | succ fuel inductionHypothesis =>
    cases fuel' with
    | zero => exact Reply.Matches.broken_right _ _
    | succ fuel' =>
      rw [Parser.members, Parser.members, ← alike.token_eq]
      by_cases literal : left.token.kind = .literal
      · rw [if_pos literal, if_pos literal]
        apply (alike.literalMember literal).andThen
        intro member after stop next
        exact inductionHypothesis next fuel' (member :: found)
      · rw [if_neg literal, if_neg literal]
        by_cases minus : left.token.kind = .minus
        · rw [if_pos minus, if_pos minus]
          exact inductionHypothesis (alike.advance (by simp [minus])) fuel' _
        · rw [if_neg minus, if_neg minus]
          exact ⟨rfl, alike⟩

/-- Reading a character class does not tell cursors apart. -/
theorem Cursor.Alike.charClass {left right : Cursor} (alike : left.Alike right) (fuel fuel' : Nat)
    (bracket : left.token.kind = .leftBracket) :
    Reply.Matches Cursor.Alike (charClass fuel left) (charClass fuel' right) := by
  obtain ⟨negation, inner⟩ :=
    (alike.advance (by simp [bracket])).accept .caret (by decide)
  rw [Parser.charClass, Parser.charClass, ← alike.token_eq, ← negation]
  apply (inner.members fuel fuel' []).andThen
  intro members after stop next
  apply (next.expect .rightBracket (by decide)).andThen
  intro closing last halt final
  exact ⟨rfl, final⟩

/-- Rules with this much fuel on the one side and on the other match. -/
structure RulesMatch (limit : Option Nat) (fuel fuel' : Nat) : Prop where
  regex : ∀ earlier (left right : Cursor), left.Alike right →
    Reply.Matches Cursor.Alike (Parser.regex limit fuel earlier left)
      (Parser.regex limit fuel' earlier right)
  sequence : ∀ found (left right : Cursor), left.Alike right →
    Reply.Matches Cursor.Alike (Parser.sequence limit fuel found left)
      (Parser.sequence limit fuel' found right)
  expr : ∀ left right : Cursor, left.Alike right →
    Reply.Matches Cursor.Alike (Parser.expr limit fuel left) (Parser.expr limit fuel' right)
  term : ∀ left right : Cursor, left.Alike right →
    Reply.Matches Cursor.Alike (Parser.term limit fuel left) (Parser.term limit fuel' right)

variable {limit : Option Nat} {fuel fuel' : Nat}

/-- A regex, given that the rules match on less fuel. -/
theorem regex_matches (rules : RulesMatch limit fuel fuel') (earlier : List (Sequence × Token))
    (left right : Cursor) (alike : left.Alike right) :
    Reply.Matches Cursor.Alike (regex limit (fuel + 1) earlier left)
      (regex limit (fuel' + 1) earlier right) := by
  rw [regex, regex]
  apply (rules.sequence [] left right alike).andThen
  intro last after stop next
  rw [← next.token_eq]
  by_cases pipe : after.token.kind = .pipe
  · rw [if_pos pipe, if_pos pipe]
    exact rules.regex _ _ _ (next.advance (by simp [pipe]))
  · rw [if_neg pipe, if_neg pipe]
    exact ⟨rfl, next⟩

/-- A sequence, given that the rules match on less fuel. -/
theorem sequence_matches (rules : RulesMatch limit fuel fuel') (found : List Expr)
    (left right : Cursor) (alike : left.Alike right) :
    Reply.Matches Cursor.Alike (sequence limit (fuel + 1) found left)
      (sequence limit (fuel' + 1) found right) := by
  rw [sequence, sequence, ← alike.token_eq]
  by_cases ends : endsSequence left.token.kind = true
  · rw [if_pos ends, if_pos ends]
    exact ⟨rfl, alike⟩
  · rw [if_neg ends, if_neg ends]
    apply (rules.expr left right alike).andThen
    intro expr after stop next
    exact rules.sequence _ _ _ next

/-- An expression, given that the rules match on less fuel. -/
theorem expr_matches (rules : RulesMatch limit fuel fuel') (left right : Cursor)
    (alike : left.Alike right) :
    Reply.Matches Cursor.Alike (expr limit (fuel + 1) left) (expr limit (fuel' + 1) right) := by
  rw [expr, expr]
  apply (rules.term left right alike).andThen
  intro term after stop next
  exact next.quantify term

/-- A term, given that the rules match on less fuel. -/
theorem term_matches (rules : RulesMatch limit fuel fuel') (left right : Cursor)
    (alike : left.Alike right) :
    Reply.Matches Cursor.Alike (term limit (fuel + 1) left) (term limit (fuel' + 1) right) := by
  rw [term, term, ← alike.token_eq, ← alike.depth_eq]
  cases kind : left.token.kind with
  | literal | dot | escape => exact ⟨rfl, alike.advance (by simp [kind])⟩
  | leftParen =>
    by_cases full : limit = some left.depth
    · simp only [if_pos full]
      rfl
    · have next := alike.advance (by simp [kind])
      simp only [if_neg full]
      have entered : left.advance.enter.Alike right.advance.enter :=
        ⟨next.stream_eq, congrArg (· + 1) next.depth_eq⟩
      apply (rules.regex [] _ _ entered).andThen
      intro regex after stop inner
      have left : after.leave.Alike stop.leave := ⟨inner.stream_eq, congrArg (· - 1) inner.depth_eq⟩
      apply (left.expect .rightParen (by decide)).andThen
      intro closing last halt final
      exact ⟨rfl, final⟩
  | leftBracket => exact alike.charClass fuel fuel' kind
  | endOfInput | rightParen | rightBracket | plus | minus | star | question | caret | pipe => rfl

/-- The rules match on any fuel. -/
theorem rulesMatch (limit : Option Nat) (fuel fuel' : Nat) : RulesMatch limit fuel fuel' := by
  induction fuel generalizing fuel' with
  | zero =>
    exact ⟨fun _ _ _ _ => Reply.Matches.broken_left _ _,
      fun _ _ _ _ => Reply.Matches.broken_left _ _,
      fun _ _ _ => Reply.Matches.broken_left _ _, fun _ _ _ => Reply.Matches.broken_left _ _⟩
  | succ fuel rules =>
    cases fuel' with
    | zero =>
      exact ⟨fun _ _ _ _ => Reply.Matches.broken_right _ _,
        fun _ _ _ _ => Reply.Matches.broken_right _ _,
        fun _ _ _ => Reply.Matches.broken_right _ _, fun _ _ _ => Reply.Matches.broken_right _ _⟩
    | succ fuel' =>
      exact ⟨regex_matches (rules fuel'), sequence_matches (rules fuel'),
        expr_matches (rules fuel'), term_matches (rules fuel')⟩

/-- Patterns with the same tokens match. -/
theorem pattern_matches (limit : Option Nat) (fuel fuel' : Nat) (left right : Cursor)
    (alike : left.Alike right) :
    Reply.Matches (fun _ _ => True) (pattern limit fuel left) (pattern limit fuel' right) := by
  rw [pattern, pattern]
  apply ((rulesMatch limit fuel fuel').regex [] left right alike).andThen
  intro regex after stop next
  simp only [Cursor.expect, ← next.token_eq]
  by_cases ended : after.token.kind = .endOfInput
  · rw [if_pos ended, if_pos ended]
    exact ⟨rfl, trivial⟩
  · rw [if_neg ended, if_neg ended]
    rfl

end Parser

/-- Patterns with the same tokens and the same end have the same parse. -/
theorem parseWithin_eq_of_stream_eq (limit : Option Nat) (left right : String)
    (same : (Scanner.ofPattern left).stream = (Scanner.ofPattern right).stream) :
    parseWithin limit left = parseWithin limit right := by
  have alike : (Parser.Cursor.ofPattern left).Alike (.ofPattern right) := by
    refine ⟨?_, rfl⟩
    rw [Parser.Cursor.ofPattern_stream, Parser.Cursor.ofPattern_stream, same]
  exact (Parser.pattern_matches limit _ _ _ _ alike).verdict_eq _ _

end RegexCompiler
