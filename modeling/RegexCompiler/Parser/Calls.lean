import RegexCompiler.Parser.Progress

/-!
# Every parse ends with a verdict

A rule calls the rules it is made of, and a loop calls its own rule for the next turn. Each
such call either begins with fewer pending tokens or leads from a rule to one further down the
grammar, so it weighs less: four for each pending token, and up to four by the rule. No chain
of calls is therefore longer than the weight of the call it begins with.

Fuel bounds the length of these chains. A call that breaks down with some fuel left makes a
call that breaks down on one step less, until no fuel is left. Fuel of at least the weight of
a call settles it, and four steps for each character of a pattern, and four more, settle the
pattern.
-/

namespace RegexCompiler.Parser

/-- A call of a rule, with what its loop has found so far and where it begins. -/
inductive Call where
  | regex (earlier : List (Sequence × Token)) (cursor : Cursor)
  | sequence (found : List Expr) (cursor : Cursor)
  | expr (cursor : Cursor)
  | term (cursor : Cursor)
  | members (found : List Member) (cursor : Cursor)

namespace Call

/-- What the called rule reads. -/
def Value : Call → Type
  | regex _ _ => Regex
  | sequence _ _ => Sequence
  | expr _ => Expr
  | term _ => Term
  | members _ _ => Members

/-- Where the call begins. -/
def cursor : Call → Cursor
  | regex _ cursor => cursor
  | sequence _ cursor => cursor
  | expr cursor => cursor
  | term cursor => cursor
  | members _ cursor => cursor

/-- The reply to a call. -/
def reply (limit : Option Nat) (fuel : Nat) : (call : Call) → Reply call.Value
  | regex earlier cursor => Parser.regex limit fuel earlier cursor
  | sequence found cursor => Parser.sequence limit fuel found cursor
  | expr cursor => Parser.expr limit fuel cursor
  | term cursor => Parser.term limit fuel cursor
  | members found cursor => Parser.members fuel found cursor

/-- How far a rule is from the next token that is stepped over for certain. -/
def rank : Call → Nat
  | regex _ _ => 4
  | sequence _ _ => 3
  | expr _ => 2
  | term _ => 1
  | members _ _ => 1

/-- What bounds the depth of the calls below a call. -/
def weight (call : Call) : Nat := 4 * call.cursor.pending + call.rank

/-- The calls that a call makes itself: of the rules it is made of, and of its own
rule for the next turn of a loop. -/
inductive Prompts (limit : Option Nat) : Call → Call → Prop where
  | firstBranch {earlier : List (Sequence × Token)} {cursor : Cursor} :
      Prompts limit (.regex earlier cursor) (.sequence [] cursor)
  | nextBranch {earlier : List (Sequence × Token)} {cursor after : Cursor} {last : Sequence}
      {fuel : Nat} (read : Parser.sequence limit fuel [] cursor = .accepted last after)
      (pipe : after.token.kind = .pipe) :
      Prompts limit (.regex earlier cursor) (.regex ((last, after.token) :: earlier) after.advance)
  | firstExpr {found : List Expr} {cursor : Cursor}
      (more : endsSequence cursor.token.kind = false) :
      Prompts limit (.sequence found cursor) (.expr cursor)
  | nextExpr {found : List Expr} {cursor after : Cursor} {expr : Expr} {fuel : Nat}
      (more : endsSequence cursor.token.kind = false)
      (read : Parser.expr limit fuel cursor = .accepted expr after) :
      Prompts limit (.sequence found cursor) (.sequence (expr :: found) after)
  | term {cursor : Cursor} : Prompts limit (.expr cursor) (.term cursor)
  | group {cursor : Cursor} (opens : cursor.token.kind = .leftParen)
      (room : limit ≠ some cursor.depth) :
      Prompts limit (.term cursor) (.regex [] cursor.advance.enter)
  | charClass {cursor : Cursor} (opens : cursor.token.kind = .leftBracket) :
      Prompts limit (.term cursor) (.members [] (cursor.advance.accept .caret).2)
  | literal {found : List Member} {cursor after : Cursor} {member : Member}
      (literal : cursor.token.kind = .literal)
      (read : literalMember cursor = .accepted member after) :
      Prompts limit (.members found cursor) (.members (member :: found) after)
  | minus {found : List Member} {cursor : Cursor} (minus : cursor.token.kind = .minus) :
      Prompts limit (.members found cursor)
        (.members (.single cursor.token :: found) cursor.advance)

variable {limit : Option Nat}

/-- A call that a call makes weighs less. -/
theorem Prompts.weight_lt {call next : Call} (prompts : Prompts limit call next) :
    next.weight < call.weight := by
  cases prompts with
  | firstBranch => simp only [weight, cursor, rank]; omega
  | @nextBranch earlier cursor after last fuel read pipe =>
    have fewer := ((rulesSpend limit fuel).sequence [] cursor).of_accepted read
    have bar := after.token.weight_of_kind _ pipe (by decide)
    have stepped := after.advance_pending
    simp only [weight, Call.cursor, rank]
    omega
  | firstExpr more => simp only [weight, cursor, rank]; omega
  | @nextExpr found cursor after expr fuel more read =>
    have fewer := ((rulesSpend limit fuel).expr cursor).of_accepted read
    simp only [weight, Call.cursor, rank]
    omega
  | term => simp only [weight, cursor, rank]; omega
  | @group cursor opens room =>
    have opening := cursor.token.weight_of_kind _ opens (by decide)
    have stepped := cursor.advance_pending
    have entered : cursor.advance.enter.pending = cursor.advance.pending := rfl
    simp only [weight, Call.cursor, rank]
    omega
  | @charClass cursor opens =>
    have opening := cursor.token.weight_of_kind _ opens (by decide)
    have stepped := cursor.advance_pending
    have negated := (cursor.advance.accept_progress .caret cursor.advance_held).2
    simp only [weight, Call.cursor, rank]
    omega
  | @literal found cursor after member literal read =>
    have fewer := (literalMember_spends cursor literal).of_accepted read
    simp only [weight, Call.cursor, rank]
    omega
  | @minus found cursor minus =>
    have dash := cursor.token.weight_of_kind _ minus (by decide)
    have stepped := cursor.advance_pending
    simp only [weight, Call.cursor, rank]
    omega

end Call

/-! ### Where fuel runs out -/

/-- A rule after a rule breaks down in the first or in the second. -/
theorem Reply.andThen_unsettled {α β : Type} {reply : Reply α} {proceed : α → Cursor → Reply β}
    (unsettled : (reply.andThen proceed).isSettled = false) :
    reply.isSettled = false ∨
      ∃ value after, reply = .accepted value after ∧ (proceed value after).isSettled = false := by
  cases reply with
  | accepted value after => exact .inr ⟨value, after, rfl, unsettled⟩
  | rejected error stop => simp [Reply.andThen, Reply.isSettled] at unsettled
  | broken fault => exact .inl rfl

/-- A required token is always accepted or rejected. -/
theorem Cursor.expect_isSettled (cursor : Cursor) (kind : Kind) :
    (cursor.expect kind).isSettled = true := by
  unfold Cursor.expect
  split <;> rfl

/-- A rule followed by a required token breaks down only in the rule. -/
theorem Reply.unsettled_of_expect {α β : Type} {reply : Reply α} {place : Cursor → Cursor}
    {kind : Kind} {build : α → Token → β}
    (unsettled : (reply.andThen fun value after =>
      ((place after).expect kind).andThen fun token stop =>
        .accepted (build value token) stop).isSettled = false) : reply.isSettled = false := by
  obtain broken | ⟨value, after, _, later⟩ := Reply.andThen_unsettled unsettled
  · exact broken
  · obtain refused | ⟨token, stop, _, ended⟩ := Reply.andThen_unsettled later
    · simp [Cursor.expect_isSettled] at refused
    · simp [Reply.isSettled] at ended

namespace Call

/-- A call that breaks down makes a call that breaks down on one step less. -/
theorem prompts_of_unsettled (call : Call) (fuel : Nat)
    (unsettled : (call.reply limit (fuel + 1)).isSettled = false) :
    ∃ next, Prompts limit call next ∧ (next.reply limit fuel).isSettled = false := by
  cases call with
  | regex earlier cursor =>
    simp only [reply, Parser.regex] at unsettled
    obtain broken | ⟨last, after, read, later⟩ := Reply.andThen_unsettled unsettled
    · exact ⟨_, .firstBranch, broken⟩
    · split at later
      · rename_i pipe
        exact ⟨_, .nextBranch read pipe, later⟩
      · simp [Reply.isSettled] at later
  | sequence found cursor =>
    simp only [reply, Parser.sequence] at unsettled
    split at unsettled
    · simp [Reply.isSettled] at unsettled
    · rename_i more
      have more : endsSequence cursor.token.kind = false := by simpa using more
      obtain broken | ⟨expr, after, read, later⟩ := Reply.andThen_unsettled unsettled
      · exact ⟨_, .firstExpr more, broken⟩
      · exact ⟨_, .nextExpr more read, later⟩
  | expr cursor =>
    simp only [reply, Parser.expr] at unsettled
    obtain broken | ⟨term, after, read, later⟩ := Reply.andThen_unsettled unsettled
    · exact ⟨_, .term, broken⟩
    · simp [Reply.isSettled] at later
  | term cursor =>
    simp only [reply, Parser.term] at unsettled
    split at unsettled
    · simp [Reply.isSettled] at unsettled
    · simp [Reply.isSettled] at unsettled
    · simp [Reply.isSettled] at unsettled
    · rename_i opens
      split at unsettled
      · simp [Reply.isSettled] at unsettled
      · rename_i room
        exact ⟨_, .group opens room, Reply.unsettled_of_expect unsettled⟩
    · rename_i opens
      exact ⟨_, .charClass opens, Reply.unsettled_of_expect unsettled⟩
    · simp [Reply.isSettled] at unsettled
  | members found cursor =>
    simp only [reply, Parser.members] at unsettled
    split at unsettled
    · rename_i literal
      obtain ⟨member, after, read, _⟩ := literalMember_progress cursor literal
      rw [read] at unsettled
      exact ⟨_, .literal literal read, unsettled⟩
    · split at unsettled
      · rename_i minus
        exact ⟨_, .minus minus, unsettled⟩
      · simp [Reply.isSettled] at unsettled

/-- A call that breaks down weighs more than its fuel. -/
theorem lt_weight_of_unsettled (call : Call) (fuel : Nat)
    (unsettled : (call.reply limit fuel).isSettled = false) : fuel < call.weight := by
  induction fuel generalizing call with
  | zero => cases call <;> simp [weight, rank]
  | succ fuel inductionHypothesis =>
    obtain ⟨next, prompts, broken⟩ := call.prompts_of_unsettled fuel unsettled
    have shorter := inductionHypothesis next broken
    have lighter := prompts.weight_lt
    omega

/-- Fuel of at least its weight settles a call. -/
theorem isSettled_of_weight_le (call : Call) (fuel : Nat) (enough : call.weight ≤ fuel) :
    (call.reply limit fuel).isSettled = true := by
  rw [← Bool.not_eq_false]
  intro unsettled
  have short := call.lt_weight_of_unsettled fuel unsettled
  omega

end Call

/-- A cursor on the first token has the tokens of the whole pattern before it. -/
theorem Cursor.ofPattern_pending (pattern : String) :
    (Cursor.ofPattern pattern).pending = (lexemes 0 pattern.toList).length := by
  show (Scanner.ofPattern pattern).next.1.weight + (Scanner.ofPattern pattern).next.2.pending = _
  rw [Scanner.next_pending]
  simp [Scanner.pending, Scanner.ofPattern]

/-- Four steps for each pending token, and four more, settle a pattern. -/
theorem pattern_isSettled (limit : Option Nat) (cursor : Cursor) (fuel : Nat)
    (enough : 4 * cursor.pending + 4 ≤ fuel) : (pattern limit fuel cursor).isSettled = true := by
  rw [← Bool.not_eq_false]
  intro unsettled
  have broken : ((Call.regex [] cursor).reply limit fuel).isSettled = false :=
    Reply.unsettled_of_expect unsettled
  exact Nat.not_lt.mpr enough (Call.lt_weight_of_unsettled _ fuel broken)

end RegexCompiler.Parser
