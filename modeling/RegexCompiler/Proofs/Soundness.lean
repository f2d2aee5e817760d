import RegexCompiler.Parser
import RegexCompiler.Proofs.Grammar
import RegexCompiler.Proofs.TokenStream

/-!
# What the rules accept is derivable

Whatever a rule accepts conforms to the grammar, and its tokens are exactly those
the rule took off the stream. The limit on nested groups counts the groups that are
open already, so a rule at some depth has the rest of the limit to spare, and that
rest is the nesting its result conforms to.
-/

namespace RegexCompiler

/-! ### Chains and the lists they stand for -/

/-- The tokens of a chain are those of its expressions in order. -/
theorem Sequence.tokens_eq : (sequence : Sequence) →
    sequence.tokens = sequence.toList.flatMap Expr.tokens
  | .empty => by simp [Sequence.tokens, Sequence.toList, Sequence.collect]
  | .last expr => by simp [Sequence.tokens, Sequence.toList, Sequence.collect]
  | .link expr tail => by
    rw [Sequence.toList_link, List.flatMap_cons, Sequence.tokens, tail.tokens_eq]

/-- A chain conforms if all its expressions do. -/
theorem Sequence.conforms_iff (nesting : Nat) : (sequence : Sequence) →
    (sequence.Conforms nesting ↔ ∀ expr ∈ sequence.toList, expr.Conforms nesting)
  | .empty => by simp [Sequence.Conforms, Sequence.toList, Sequence.collect]
  | .last expr => by simp [Sequence.Conforms, Sequence.toList, Sequence.collect]
  | .link expr tail => by
    rw [Sequence.toList_link, List.forall_mem_cons, Sequence.Conforms,
      tail.conforms_iff nesting]

/-- Branches read before the rest of a regex, latest first, around that rest. -/
def Regex.behind (earlier : List (Sequence × Token)) (rest : Regex) : Regex :=
  earlier.foldl (fun rest branch => .alternate branch.1 branch.2 rest) rest

/-- The regex built from branches in reverse is the last sequence behind them. -/
theorem Regex.ofBranches_reverse (earlier : List (Sequence × Token)) (last : Sequence) :
    Regex.ofBranches earlier.reverse last = Regex.behind earlier (.single last) := by
  simp [Regex.ofBranches, Regex.behind]

namespace Parser

/-! ### What the rules read -/

/-- If the reply accepts, it stops at the given depth with a free slot, and the
tokens taken off the front of the stream are related to the value. -/
def Reply.Reads {α : Type} (reads : α → List Token → Prop) (stream : List Token) (depth : Nat) :
    Reply α → Prop
  | .accepted value after => after.scanner.held = none ∧ after.depth = depth ∧
      ∃ consumed, stream = consumed ++ after.stream ∧ reads value consumed
  | .rejected _ _ => True
  | .broken _ => True

/-- Tokens already taken off come before those a reply reads. -/
theorem Reply.Reads.behind {α : Type} {reads : α → List Token → Prop} {stream rest : List Token}
    {depth : Nat} {reply : Reply α} (taken : List Token) (split : stream = taken ++ rest)
    (read : reply.Reads (fun value consumed => reads value (taken ++ consumed)) rest depth) :
    reply.Reads reads stream depth := by
  cases reply with
  | rejected error stop => trivial
  | broken fault => trivial
  | accepted value after =>
    obtain ⟨free, same, consumed, others, inner⟩ := read
    exact ⟨free, same, taken ++ consumed, by rw [split, others, List.append_assoc], inner⟩

/-- A rule after a rule reads what both read. -/
theorem Reply.Reads.andThen {α β : Type} {reads : α → List Token → Prop}
    {result : β → List Token → Prop} {stream : List Token} {inside depth : Nat} {reply : Reply α}
    {proceed : α → Cursor → Reply β} (first : reply.Reads reads stream inside)
    (tidy : Tidy stream)
    (next : ∀ value consumed after, after.scanner.held = none → after.depth = inside →
      Tidy after.stream → reads value consumed →
      (proceed value after).Reads (fun final more => result final (consumed ++ more))
        after.stream depth) :
    (reply.andThen proceed).Reads result stream depth := by
  cases reply with
  | rejected error stop => trivial
  | broken fault => trivial
  | accepted value after =>
    obtain ⟨free, same, consumed, split, read⟩ := first
    have tidyAfter : Tidy after.stream := (split ▸ tidy).right_of_append
    exact (next value consumed after free same tidyAfter read).behind consumed split

/-- What a reply reads may be described more loosely. -/
theorem Reply.Reads.imp {α : Type} {reads wider : α → List Token → Prop} {stream : List Token}
    {depth : Nat} {reply : Reply α} (read : reply.Reads reads stream depth)
    (loosen : ∀ value consumed, reads value consumed → wider value consumed) :
    reply.Reads wider stream depth := by
  cases reply with
  | rejected error stop => trivial
  | broken fault => trivial
  | accepted value after =>
    obtain ⟨free, same, consumed, split, inner⟩ := read
    exact ⟨free, same, consumed, split, loosen value consumed inner⟩

/-- The value is the chain of the items found before, latest first, and of further
items in order, all of them valid. The tokens of the further items were consumed. -/
def Extends {α β : Type} (ofList : List β → α) (valid : β → Prop) (tokens : β → List Token)
    (found : List β) (value : α) (consumed : List Token) : Prop :=
  ∃ more : List β, value = ofList (found.reverse ++ more) ∧ (∀ item ∈ more, valid item) ∧
    more.flatMap tokens = consumed

/-- A valid item in front of further items extends the chain without it. -/
theorem Extends.cons {α β : Type} {ofList : List β → α} {valid : β → Prop}
    {tokens : β → List Token} {found : List β} {item : β} {value : α} {consumed : List Token}
    (isValid : valid item) (extended : Extends ofList valid tokens (item :: found) value consumed) :
    Extends ofList valid tokens found value (tokens item ++ consumed) := by
  obtain ⟨more, rfl, others, rfl⟩ := extended
  exact ⟨item :: more, by simp, List.forall_mem_cons.mpr ⟨isValid, others⟩, rfl⟩

/-- The value conforms to the grammar, and its tokens were consumed. -/
def Spells {α : Type} (conforms : α → Prop) (tokens : α → List Token) (value : α)
    (consumed : List Token) : Prop :=
  conforms value ∧ tokens value = consumed

/-- A required token is read as itself. -/
theorem Cursor.expect_reads (cursor : Cursor) (kind : Kind) (live : kind ≠ .endOfInput) :
    (cursor.expect kind).Reads (fun token consumed => token.kind = kind ∧ consumed = [token])
      cursor.stream cursor.depth := by
  rw [Cursor.expect]
  split
  · rename_i same
    exact ⟨cursor.advance_held, rfl, [cursor.token], cursor.stream_eq_cons_of_kind kind same live,
      same, rfl⟩
  · trivial

/-- An optional token is read as itself, or nothing is. -/
theorem Cursor.accept_reads (cursor : Cursor) (kind : Kind) (live : kind ≠ .endOfInput) :
    cursor.stream = (cursor.accept kind).1.toList ++ (cursor.accept kind).2.stream ∧
      (cursor.accept kind).2.depth = cursor.depth ∧
      ∀ token ∈ (cursor.accept kind).1, token.kind = kind := by
  rw [Cursor.accept]
  split
  · rename_i same
    refine ⟨cursor.stream_eq_cons_of_kind kind same live, rfl, ?_⟩
    intro token member
    obtain rfl : cursor.token = token := Option.some.inj member
    exact same
  · exact ⟨rfl, rfl, by simp⟩

/-- The repetition an operator stands for has that operator. -/
theorem repetition?_operatorKind (kind : Kind) (repetition : Repetition)
    (stands : repetition? kind = some repetition) : kind = repetition.operatorKind := by
  unfold repetition? at stands
  split at stands
  · obtain rfl := Option.some.inj stands
    rfl
  · obtain rfl := Option.some.inj stands
    rfl
  · obtain rfl := Option.some.inj stands
    rfl
  · simp at stands

/-- Reading a quantifier adds its tokens to those of the term. -/
theorem quantify_reads (term : Term) (cursor : Cursor) (nesting : Nat)
    (free : cursor.scanner.held = none) (conforms : term.Conforms nesting) :
    (Reply.accepted (quantify term cursor).1 (quantify term cursor).2).Reads
      (fun expr consumed => expr.Conforms nesting ∧ expr.tokens = term.tokens ++ consumed)
      cursor.stream cursor.depth := by
  rw [quantify]
  split
  · refine ⟨free, rfl, [], rfl, ⟨conforms, by simp⟩, ?_⟩
    simp [Expr.tokens]
  · rename_i repetition stands
    have agrees := repetition?_operatorKind _ _ stands
    have live : cursor.token.kind ≠ .endOfInput := by
      rw [agrees]
      cases repetition <;> decide
    obtain ⟨split, depth, marks⟩ := cursor.advance.accept_reads .question (by decide)
    refine ⟨(cursor.advance.accept_progress .question cursor.advance_held).1, depth,
      cursor.token :: (cursor.advance.accept .question).1.toList, ?_, ⟨conforms, ?_⟩, ?_⟩
    · rw [cursor.stream_eq_cons live, split]
      rfl
    · intro applied member
      obtain rfl := Option.some.inj member
      exact ⟨agrees, marks⟩
    · simp [Expr.tokens, Quantifier.tokens]

/-- A member that begins with a literal is read whole. Behind it the slot is free,
or a `-` that no literal follows is current again. -/
theorem literalMember_reads (cursor : Cursor) (literal : cursor.token.kind = .literal)
    (tidy : Tidy cursor.stream) :
    ∃ member after, literalMember cursor = .accepted member after ∧
      (after.scanner.held = none ∨ after.token.kind = .minus) ∧ after.depth = cursor.depth ∧
      cursor.stream = member.tokens ++ after.stream ∧ member.Conforms := by
  have low := cursor.stream_eq_cons_of_kind _ literal (by decide)
  rw [literalMember]
  simp only
  split
  · rename_i minus
    have dash := cursor.advance.stream_eq_cons_of_kind _ minus (by decide)
    split
    · rename_i literalHigh
      have high := cursor.advance.advance.stream_eq_cons_of_kind _ literalHigh (by decide)
      refine ⟨_, _, rfl, .inl cursor.advance.advance.advance_held, rfl, ?_, literal, literalHigh⟩
      rw [low, dash, high] at tidy ⊢
      simp only [Member.tokens, rangeMinus, List.cons_append, List.nil_append]
      rw [← tidy.eq_minus minus]
    · obtain ⟨back, restored, token, stream, depth⟩ := cursor.advance.advance.unget_stream
        cursor.advance.token cursor.advance.advance_held (by rw [minus]; decide)
      rw [restored]
      refine ⟨_, back, rfl, .inr (token ▸ minus), depth, ?_, .inl literal⟩
      rw [low, dash, stream]
      rfl
  · exact ⟨_, _, rfl, .inl cursor.advance_held, rfl, low, .inl literal⟩

/-- The loop between brackets reads members that conform. -/
theorem members_reads (fuel : Nat) (found : List Member) (cursor : Cursor)
    (free : cursor.scanner.held = none ∨ cursor.token.kind = .minus)
    (tidy : Tidy cursor.stream) :
    (members fuel found cursor).Reads
      (Extends Members.ofList Member.Conforms Member.tokens found)
      cursor.stream cursor.depth := by
  induction fuel generalizing found cursor with
  | zero => trivial
  | succ fuel inductionHypothesis =>
    rw [members]
    split
    · rename_i literal
      obtain ⟨member, after, read, ready, depth, split, conforms⟩ :=
        literalMember_reads cursor literal tidy
      have tidyAfter : Tidy after.stream := (split ▸ tidy).right_of_append
      have later := inductionHypothesis (member :: found) after ready tidyAfter
      rw [read]
      exact Reply.Reads.behind member.tokens split
        (depth ▸ later.imp fun _ _ extended => extended.cons conforms)
    · split
      · rename_i minus
        have split := cursor.stream_eq_cons_of_kind _ minus (by decide)
        have tidyAfter : Tidy cursor.advance.stream := (split ▸ tidy).tail
        have later := inductionHypothesis (.single cursor.token :: found) cursor.advance
          (.inl cursor.advance_held) tidyAfter
        have conforms : (Member.single cursor.token).Conforms := .inr minus
        exact Reply.Reads.behind [cursor.token] split
          (later.imp fun _ _ extended => extended.cons conforms)
      · rename_i notMinus
        exact ⟨free.resolve_right notMinus, rfl, [], rfl, [], by simp, by simp, rfl⟩

/-- A character class is read whole and conforms. -/
theorem charClass_reads (fuel : Nat) (cursor : Cursor) (nesting : Nat)
    (bracket : cursor.token.kind = .leftBracket) (tidy : Tidy cursor.stream) :
    (charClass fuel cursor).Reads (Spells (Term.Conforms nesting) Term.tokens)
      cursor.stream cursor.depth := by
  have stream := cursor.stream_eq_cons_of_kind _ bracket (by decide)
  obtain ⟨split, depth, carets⟩ := cursor.advance.accept_reads .caret (by decide)
  have free := (cursor.advance.accept_progress .caret cursor.advance_held).1
  have tidyInner : Tidy (cursor.advance.accept .caret).2.stream := by
    rw [stream, split] at tidy
    exact tidy.tail.right_of_append
  rw [charClass]
  refine Reply.Reads.behind (cursor.token :: (cursor.advance.accept .caret).1.toList)
    (by rw [stream, split]; rfl) ?_
  apply (members_reads fuel [] _ (.inl free) tidyInner).andThen tidyInner
  rintro _ _ after freeAfter depthAfter tidyAfter ⟨more, rfl, conform, rfl⟩
  apply (after.expect_reads .rightBracket (by decide)).andThen tidyAfter
  rintro closing _ stop freeStop depthStop tidyStop ⟨closes, rfl⟩
  refine ⟨freeStop, depthStop.trans (depthAfter.trans depth), [], rfl,
    ⟨bracket, closes, carets, ?_⟩, ?_⟩
  · rw [Members.toList_ofList]
    exact conform
  · simp [Term.tokens, Members.tokens, Members.toList_ofList]

/-- What each rule reads at a depth that leaves `nesting` groups of the limit. -/
structure RulesRead (limit fuel : Nat) : Prop where
  regex : ∀ nesting earlier (cursor : Cursor), cursor.scanner.held = none → Tidy cursor.stream →
    limit = cursor.depth + nesting →
    (Parser.regex (some limit) fuel earlier cursor).Reads
      (fun value consumed => ∃ rest, value = Regex.behind earlier rest ∧
        Spells (Regex.Conforms nesting) Regex.tokens rest consumed) cursor.stream cursor.depth
  sequence : ∀ nesting found (cursor : Cursor), cursor.scanner.held = none →
    Tidy cursor.stream → limit = cursor.depth + nesting →
    (Parser.sequence (some limit) fuel found cursor).Reads
      (Extends Sequence.ofList (Expr.Conforms nesting) Expr.tokens found)
      cursor.stream cursor.depth
  expr : ∀ nesting (cursor : Cursor), Tidy cursor.stream → limit = cursor.depth + nesting →
    (Parser.expr (some limit) fuel cursor).Reads (Spells (Expr.Conforms nesting) Expr.tokens)
      cursor.stream cursor.depth
  term : ∀ nesting (cursor : Cursor), Tidy cursor.stream → limit = cursor.depth + nesting →
    (Parser.term (some limit) fuel cursor).Reads (Spells (Term.Conforms nesting) Term.tokens)
      cursor.stream cursor.depth

/-- A regex, given what the rules read on less fuel. -/
theorem regex_reads (limit fuel : Nat) (rules : RulesRead limit fuel) (nesting : Nat)
    (earlier : List (Sequence × Token)) (cursor : Cursor) (free : cursor.scanner.held = none)
    (tidy : Tidy cursor.stream) (spare : limit = cursor.depth + nesting) :
    (regex (some limit) (fuel + 1) earlier cursor).Reads
      (fun value consumed => ∃ rest, value = Regex.behind earlier rest ∧
        Spells (Regex.Conforms nesting) Regex.tokens rest consumed) cursor.stream cursor.depth := by
  rw [regex]
  apply (rules.sequence nesting [] cursor free tidy spare).andThen tidy
  rintro _ _ after freeAfter depth tidyAfter ⟨exprs, rfl, conform, rfl⟩
  have conforms : (Sequence.ofList exprs).Conforms nesting := by
    rw [Sequence.conforms_iff, Sequence.toList_ofList]
    exact conform
  have tokens : (Sequence.ofList exprs).tokens = exprs.flatMap Expr.tokens := by
    rw [Sequence.tokens_eq, Sequence.toList_ofList]
  simp only [List.reverse_nil, List.nil_append]
  split
  · rename_i pipe
    have split := after.stream_eq_cons_of_kind _ pipe (by decide)
    have later := rules.regex nesting ((.ofList exprs, after.token) :: earlier) after.advance
      after.advance_held (split ▸ tidyAfter).tail (depth ▸ spare)
    refine Reply.Reads.behind [after.token] split (depth ▸ later.imp ?_)
    rintro _ _ ⟨rest, rfl, others, rfl⟩
    exact ⟨.alternate (.ofList exprs) after.token rest, rfl, ⟨conforms, pipe, others⟩,
      by simp [Regex.tokens, tokens]⟩
  · exact ⟨freeAfter, depth, [], rfl, .single (.ofList exprs),
      Regex.ofBranches_reverse _ _, conforms, by simp [Regex.tokens, tokens]⟩

/-- A sequence, given what the rules read on less fuel. -/
theorem sequence_reads (limit fuel : Nat) (rules : RulesRead limit fuel) (nesting : Nat)
    (found : List Expr) (cursor : Cursor) (free : cursor.scanner.held = none)
    (tidy : Tidy cursor.stream) (spare : limit = cursor.depth + nesting) :
    (sequence (some limit) (fuel + 1) found cursor).Reads
      (Extends Sequence.ofList (Expr.Conforms nesting) Expr.tokens found)
      cursor.stream cursor.depth := by
  rw [sequence]
  split
  · exact ⟨free, rfl, [], rfl, [], by simp, by simp, rfl⟩
  · apply (rules.expr nesting cursor tidy spare).andThen tidy
    rintro expr _ after freeAfter depth tidyAfter ⟨conforms, rfl⟩
    have later := rules.sequence nesting (expr :: found) after freeAfter tidyAfter (depth ▸ spare)
    exact depth ▸ later.imp fun _ _ extended => extended.cons conforms

/-- An expression, given what the rules read on less fuel. -/
theorem expr_reads (limit fuel : Nat) (rules : RulesRead limit fuel) (nesting : Nat)
    (cursor : Cursor) (tidy : Tidy cursor.stream) (spare : limit = cursor.depth + nesting) :
    (expr (some limit) (fuel + 1) cursor).Reads (Spells (Expr.Conforms nesting) Expr.tokens)
      cursor.stream cursor.depth := by
  rw [expr]
  apply (rules.term nesting cursor tidy spare).andThen tidy
  rintro term _ after freeAfter depth tidyAfter ⟨conforms, rfl⟩
  exact depth ▸ quantify_reads term after nesting freeAfter conforms

/-- A term, given what the rules read on less fuel. -/
theorem term_reads (limit fuel : Nat) (rules : RulesRead limit fuel) (nesting : Nat)
    (cursor : Cursor) (tidy : Tidy cursor.stream) (spare : limit = cursor.depth + nesting) :
    (term (some limit) (fuel + 1) cursor).Reads (Spells (Term.Conforms nesting) Term.tokens)
      cursor.stream cursor.depth := by
  have atom : cursor.token.kind.IsAtom → cursor.token.kind ≠ .endOfInput →
      (Reply.accepted (Term.atom cursor.token) cursor.advance).Reads
        (Spells (Term.Conforms nesting) Term.tokens) cursor.stream cursor.depth := by
    intro isAtom live
    exact ⟨cursor.advance_held, rfl, [cursor.token], cursor.stream_eq_cons live, isAtom, rfl⟩
  rw [term]
  split
  · rename_i literal
    exact atom (.inl literal) (by simp [literal])
  · rename_i dot
    exact atom (.inr (.inl dot)) (by simp [dot])
  · rename_i escape
    exact atom (.inr (.inr escape)) (by simp [escape])
  · rename_i parenthesis
    have split := cursor.stream_eq_cons_of_kind _ parenthesis (by decide)
    have tidyInner : Tidy cursor.advance.stream := (split ▸ tidy).tail
    split
    · trivial
    · rename_i notFull
      obtain ⟨fewer, rfl⟩ : ∃ fewer, nesting = fewer + 1 :=
        Nat.exists_eq_succ_of_ne_zero fun none => notFull (by rw [spare, none]; rfl)
      have body := rules.regex fewer [] cursor.advance.enter cursor.advance_held tidyInner
        (spare.trans (Nat.add_right_comm cursor.depth 1 fewer).symm)
      refine Reply.Reads.behind [cursor.token] split (body.andThen tidyInner ?_)
      rintro _ _ after freeAfter depth tidyAfter ⟨regex, rfl, conforms, rfl⟩
      have left : after.leave.depth = cursor.depth := by
        change after.depth - 1 = cursor.depth
        rw [depth]
        rfl
      apply (after.leave.expect_reads .rightParen (by decide)).andThen tidyAfter
      rintro closing _ stop freeStop depthStop tidyStop ⟨closes, rfl⟩
      refine ⟨freeStop, depthStop.trans left, [], rfl,
        ⟨parenthesis, closes, fewer, rfl, conforms⟩, ?_⟩
      simp [Term.tokens]
  · rename_i bracket
    exact charClass_reads fuel cursor nesting bracket tidy
  · trivial

/-- With any fuel, what a rule accepts conforms to the grammar and spells the tokens
it consumed. -/
theorem rulesRead (limit fuel : Nat) : RulesRead limit fuel := by
  induction fuel with
  | zero =>
    exact ⟨fun _ _ _ _ _ _ => trivial, fun _ _ _ _ _ _ => trivial, fun _ _ _ _ => trivial,
      fun _ _ _ _ => trivial⟩
  | succ fuel rules =>
    exact ⟨regex_reads limit fuel rules, sequence_reads limit fuel rules,
      expr_reads limit fuel rules, term_reads limit fuel rules⟩

/-- A rule after a rule accepts if both do. -/
theorem Reply.andThen_eq_accepted {α β : Type} {reply : Reply α} {proceed : α → Cursor → Reply β}
    {final : β} {stop : Cursor} (accepted : reply.andThen proceed = .accepted final stop) :
    ∃ value after, reply = .accepted value after ∧ proceed value after = .accepted final stop := by
  cases reply with
  | accepted value after => exact ⟨value, after, rfl, accepted⟩
  | rejected error stop => simp [Reply.andThen] at accepted
  | broken fault => simp [Reply.andThen] at accepted

/-- A required token is accepted only if it is there. -/
theorem Cursor.expect_eq_accepted {cursor stop : Cursor} {kind : Kind} {token : Token}
    (accepted : cursor.expect kind = .accepted token stop) : cursor.token.kind = kind := by
  by_contra other
  simp [Cursor.expect, other] at accepted

/-- A pattern that is accepted was read up to its end of input, so its tree spells
all its tokens. -/
theorem pattern_spells (limit fuel : Nat) (text : String) (tree : Regex) (stop : Cursor)
    (accepted : pattern (some limit) fuel (.ofPattern text) = .accepted tree stop) :
    Spells (Regex.Conforms limit) Regex.tokens tree (patternTokens text) := by
  obtain ⟨found, after, reply, closing⟩ := Reply.andThen_eq_accepted accepted
  obtain ⟨last, beyond, expected, same⟩ := Reply.andThen_eq_accepted closing
  obtain ⟨rfl, rfl⟩ : found = tree ∧ beyond = stop := by simpa using same
  have read := (rulesRead limit fuel).regex limit [] (.ofPattern text) (Scanner.next_held _)
    (Cursor.ofPattern_tidy text) (Nat.zero_add limit).symm
  rw [reply] at read
  obtain ⟨free, depth, consumed, split, rest, rfl, conforms, tokens⟩ := read
  have ended : after.stream = [after.token] := by
    simp [Cursor.stream, Cursor.expect_eq_accepted expected]
  obtain ⟨ending, ends, whole⟩ := Cursor.ofPattern_stream_split text
  have parts : patternTokens text ++ [ending] = consumed ++ [after.token] := by
    rw [← whole, split, ended]
  exact ⟨conforms, tokens.trans (List.append_inj_left' parts rfl).symm⟩

end Parser

end RegexCompiler
