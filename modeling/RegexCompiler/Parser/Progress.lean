import RegexCompiler.Parser.Rules

/-!
# Every rule makes progress

The measure is the number of tokens still to be delivered, not counting the end
of input: the current token, a token waiting in the scanner's slot, and those
yet to be read. Stepping over a token lowers it by one, and putting a token back
raises it by that one token only.

No rule raises the measure, whether it accepts or rejects, and every expression,
term and member that is read lowers it. This holds wherever the cursor stands,
however the slot is filled and whatever the fuel. A member that puts a `-` back
has stepped over two tokens, so it ends one token ahead, and the slot is empty
whenever it is needed.
-/

namespace RegexCompiler

/-- What a token counts for: nothing at the end of input, one otherwise. -/
def Token.weight (token : Token) : Nat :=
  if token.kind = .endOfInput then 0 else 1

/-- Every token but the end of input counts for one. -/
theorem Token.weight_eq_one (token : Token) (live : token.kind ≠ .endOfInput) :
    token.weight = 1 :=
  if_neg live

/-- A token of a known kind other than the end of input counts for one. -/
theorem Token.weight_of_kind (token : Token) (kind : Kind) (same : token.kind = kind)
    (live : kind ≠ .endOfInput) : token.weight = 1 :=
  token.weight_eq_one (same ▸ live)

/-- Number of tokens a scanner has yet to deliver before the end of input. -/
def Scanner.pending (scanner : Scanner) : Nat :=
  (scanner.held.map Token.weight).getD 0 + (lexemes scanner.offset scanner.rest).length

/-- Delivering a token empties the slot. -/
theorem Scanner.next_held (scanner : Scanner) : scanner.next.2.held = none := by
  unfold Scanner.next
  split <;> rfl

/-- A delivered token and what is pending after it make up what was pending. -/
theorem Scanner.next_pending (scanner : Scanner) :
    scanner.next.1.weight + scanner.next.2.pending = scanner.pending := by
  unfold Scanner.next Scanner.pending
  split
  · rename_i token held
    simp [held]
  · rename_i held
    simp only [held, Option.map_none, Option.getD_none, Nat.zero_add]
    rw [lexemes_eq scanner.offset scanner.rest]
    split
    · rename_i ended
      simp [scan_endOfInput _ _ ended, Token.weight, Token.endOfInput, lexemes, lexemesWithin]
    · rename_i delivered
      rw [Token.weight_eq_one _ delivered, List.length_cons, Nat.add_comm]

namespace Parser

/-- Number of tokens still to be parsed before the end of input. -/
def Cursor.pending (cursor : Cursor) : Nat :=
  cursor.token.weight + cursor.scanner.pending

/-- Stepping over a token empties the slot. -/
theorem Cursor.advance_held (cursor : Cursor) : cursor.advance.scanner.held = none :=
  cursor.scanner.next_held

/-- Stepping over a token lowers the measure by what the token counts for. -/
theorem Cursor.advance_pending (cursor : Cursor) :
    cursor.token.weight + cursor.advance.pending = cursor.pending := by
  show cursor.token.weight + (cursor.scanner.next.1.weight + cursor.scanner.next.2.pending) = _
  rw [cursor.scanner.next_pending]
  rfl

/-- An optional token leaves the slot empty and never raises the measure. -/
theorem Cursor.accept_progress (cursor : Cursor) (kind : Kind)
    (free : cursor.scanner.held = none) :
    (cursor.accept kind).2.scanner.held = none ∧
      (cursor.accept kind).2.pending ≤ cursor.pending := by
  unfold Cursor.accept
  split
  · have stepped := cursor.advance_pending
    exact ⟨cursor.advance_held, by dsimp only; omega⟩
  · exact ⟨free, Nat.le_refl _⟩

/-- No more tokens are pending where the reply stopped than `before`, and on
acceptance at least `least` fewer. -/
def Reply.Spends {α : Type} (least before : Nat) : Reply α → Prop
  | .accepted _ after => after.pending + least ≤ before
  | .rejected _ stop => stop.pending ≤ before
  | .broken _ => True

/-- A bound may be relaxed, and a surplus of the bound counts as spent. -/
theorem Reply.Spends.relax {α : Type} {least before least' before' : Nat} {reply : Reply α}
    (spent : reply.Spends least before) (wider : before ≤ before')
    (enough : before + least' ≤ before' + least) : reply.Spends least' before' := by
  cases reply with
  | accepted value after =>
    have fewer : after.pending + least ≤ before := spent
    show after.pending + least' ≤ before'
    omega
  | rejected error stop => exact Nat.le_trans spent wider
  | broken fault => trivial

/-- Where an accepting reply stopped, that many tokens fewer are pending. -/
theorem Reply.Spends.of_accepted {α : Type} {least before : Nat} {reply : Reply α} {value : α}
    {after : Cursor} (spent : reply.Spends least before) (read : reply = .accepted value after) :
    after.pending + least ≤ before := by
  rwa [read] at spent

/-- A rule after a rule: what the first leaves pending bounds the second, and
what both spend adds up to what is wanted. -/
theorem Reply.Spends.andThen {α β : Type} {least before : Nat} {reply : Reply α}
    {proceed : α → Cursor → Reply β} (first : Nat) (spent : reply.Spends first before)
    (proceeds : ∀ value after, after.pending + first ≤ before →
      (proceed value after).Spends least before) :
    (reply.andThen proceed).Spends least before := by
  cases reply with
  | accepted value after => exact proceeds value after spent
  | rejected error stop => exact spent
  | broken fault => trivial

/-- A required token is stepped over or rejected where it stands. -/
theorem Cursor.expect_spends (cursor : Cursor) (kind : Kind) :
    (cursor.expect kind).Spends 0 cursor.pending := by
  unfold Cursor.expect
  split
  · have stepped := cursor.advance_pending
    show cursor.advance.pending + 0 ≤ cursor.pending
    omega
  · exact Nat.le_refl cursor.pending

/-- Reading a quantifier never raises the measure. -/
theorem quantify_pending (term : Term) (cursor : Cursor) :
    (quantify term cursor).2.pending ≤ cursor.pending := by
  unfold quantify
  split
  · exact Nat.le_refl _
  · have marked := (cursor.advance.accept_progress .question cursor.advance_held).2
    have stepped := cursor.advance_pending
    dsimp only
    omega

/-- One turn of the loop between brackets ends on an empty slot, or on a `-`
whose successor waits in the slot, with at least one token fewer. -/
theorem literalMember_progress (cursor : Cursor) (literal : cursor.token.kind = .literal) :
    ∃ member after, literalMember cursor = .accepted member after ∧
      (after.scanner.held = none ∨ after.token.kind = .minus) ∧
      after.pending + 1 ≤ cursor.pending := by
  have low := cursor.token.weight_of_kind _ literal (by decide)
  have steppedLow := cursor.advance_pending
  unfold literalMember
  simp only
  split
  · rename_i minus
    have dash := cursor.advance.token.weight_of_kind _ minus (by decide)
    have steppedDash := cursor.advance.advance_pending
    split
    · have steppedHigh := cursor.advance.advance.advance_pending
      exact ⟨_, _, rfl, .inl cursor.advance.advance.advance_held, by omega⟩
    · have free := cursor.advance.advance_held
      simp only [Cursor.unget, Scanner.pushback, free, Except.map]
      refine ⟨_, _, rfl, .inr minus, ?_⟩
      simp only [Cursor.pending, Scanner.pending, free, Option.map_some, Option.map_none,
        Option.getD_some, Option.getD_none] at steppedLow steppedDash ⊢
      omega
  · exact ⟨_, _, rfl, .inl cursor.advance_held, by omega⟩

/-- A member that begins with a literal spends at least that, whether or not a `-`
was put back. -/
theorem literalMember_spends (cursor : Cursor) (literal : cursor.token.kind = .literal) :
    (literalMember cursor).Spends 1 cursor.pending := by
  obtain ⟨member, after, read, _, fewer⟩ := literalMember_progress cursor literal
  rw [read]
  exact fewer

/-- The loop between brackets never raises the measure. -/
theorem members_spends (fuel : Nat) (found : List Member) (cursor : Cursor) :
    (members fuel found cursor).Spends 0 cursor.pending := by
  induction fuel generalizing found cursor with
  | zero => trivial
  | succ fuel inductionHypothesis =>
    unfold members
    split
    · rename_i literal
      refine (literalMember_spends cursor literal).andThen 1 ?_
      intro member after fewer
      exact (inductionHypothesis (member :: found) after).relax (by omega) (by omega)
    · split
      · have stepped := cursor.advance_pending
        exact (inductionHypothesis _ cursor.advance).relax (by omega) (by omega)
      · exact Nat.le_refl cursor.pending

/-- A character class spends at least its bracket. -/
theorem charClass_spends (fuel : Nat) (cursor : Cursor)
    (bracket : cursor.token.kind = .leftBracket) :
    (charClass fuel cursor).Spends 1 cursor.pending := by
  have opening := cursor.token.weight_of_kind _ bracket (by decide)
  have stepped := cursor.advance_pending
  have negated := (cursor.advance.accept_progress .caret cursor.advance_held).2
  unfold charClass
  refine Reply.Spends.andThen 1
    ((members_spends fuel [] (cursor.advance.accept .caret).2).relax (by omega) (by omega)) ?_
  intro members after fewer
  refine Reply.Spends.andThen 1
    ((after.expect_spends .rightBracket).relax (by omega) (by omega)) ?_
  intro closing stop fewerStop
  exact fewerStop

/-- What each rule spends. -/
structure RulesSpend (limit : Option Nat) (fuel : Nat) : Prop where
  regex : ∀ earlier cursor,
    (Parser.regex limit fuel earlier cursor).Spends 0 cursor.pending
  sequence : ∀ found cursor,
    (Parser.sequence limit fuel found cursor).Spends 0 cursor.pending
  expr : ∀ cursor, (Parser.expr limit fuel cursor).Spends 1 cursor.pending
  term : ∀ cursor, (Parser.term limit fuel cursor).Spends 1 cursor.pending

/-- The alternatives, given what every rule spends on less fuel. -/
theorem regex_spends (limit : Option Nat) (fuel : Nat) (rules : RulesSpend limit fuel)
    (earlier : List (Sequence × Token)) (cursor : Cursor) :
    (regex limit (fuel + 1) earlier cursor).Spends 0 cursor.pending := by
  unfold regex
  refine (rules.sequence [] cursor).andThen 0 ?_
  intro last after fewer
  split
  · have stepped := after.advance_pending
    exact (rules.regex _ after.advance).relax (by omega) (by omega)
  · exact fewer

/-- The expressions of a sequence, given what every rule spends on less fuel. -/
theorem sequence_spends (limit : Option Nat) (fuel : Nat) (rules : RulesSpend limit fuel)
    (found : List Expr) (cursor : Cursor) :
    (sequence limit (fuel + 1) found cursor).Spends 0 cursor.pending := by
  unfold sequence
  split
  · exact Nat.le_refl cursor.pending
  · refine (rules.expr cursor).andThen 1 ?_
    intro expr after fewer
    exact (rules.sequence _ after).relax (by omega) (by omega)

/-- A term and its quantifier, given what every rule spends on less fuel. -/
theorem expr_spends (limit : Option Nat) (fuel : Nat) (rules : RulesSpend limit fuel)
    (cursor : Cursor) : (expr limit (fuel + 1) cursor).Spends 1 cursor.pending := by
  unfold expr
  refine (rules.term cursor).andThen 1 ?_
  intro term after fewer
  have quantified := quantify_pending term after
  show (quantify term after).2.pending + 1 ≤ cursor.pending
  omega

/-- A term, given what every rule spends on less fuel. -/
theorem term_spends (limit : Option Nat) (fuel : Nat) (rules : RulesSpend limit fuel)
    (cursor : Cursor) : (term limit (fuel + 1) cursor).Spends 1 cursor.pending := by
  have stepped := cursor.advance_pending
  have atom : ∀ kind, cursor.token.kind = kind → kind ≠ .endOfInput →
      (Reply.accepted (Term.atom cursor.token) cursor.advance).Spends 1 cursor.pending := by
    intro kind same live
    have one := cursor.token.weight_of_kind kind same live
    show cursor.advance.pending + 1 ≤ cursor.pending
    omega
  unfold term
  split
  · rename_i literal
    exact atom _ literal (by decide)
  · rename_i dot
    exact atom _ dot (by decide)
  · rename_i escape
    exact atom _ escape (by decide)
  · rename_i parenthesis
    have opening := cursor.token.weight_of_kind _ parenthesis (by decide)
    split
    · exact Nat.le_refl cursor.pending
    · have entered : cursor.advance.enter.pending = cursor.advance.pending := rfl
      refine Reply.Spends.andThen 1
        ((rules.regex [] cursor.advance.enter).relax (by omega) (by omega)) ?_
      intro regex after fewer
      have left : after.leave.pending = after.pending := rfl
      refine Reply.Spends.andThen 1
        ((after.leave.expect_spends .rightParen).relax (by omega) (by omega)) ?_
      intro closing stop fewerStop
      exact fewerStop
  · rename_i bracket
    exact charClass_spends fuel cursor bracket
  · exact Nat.le_refl cursor.pending

/-- Whatever the fuel, no rule raises the measure, and an expression or a term
that is accepted lowers it. -/
theorem rulesSpend (limit : Option Nat) (fuel : Nat) : RulesSpend limit fuel := by
  induction fuel with
  | zero =>
    exact ⟨fun _ _ => trivial, fun _ _ => trivial, fun _ => trivial, fun _ => trivial⟩
  | succ fuel rules =>
    exact ⟨regex_spends limit fuel rules, sequence_spends limit fuel rules,
      expr_spends limit fuel rules, term_spends limit fuel rules⟩

end Parser

end RegexCompiler
