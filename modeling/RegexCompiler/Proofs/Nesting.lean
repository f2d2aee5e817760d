import RegexCompiler.Proofs.Composition
import RegexCompiler.Proofs.Verdicts

/-!
# What the limit on nested groups changes

The parser under a limit is compared with the parser that has none. Rule by rule and with
the same fuel, both reply alike, unless the limited rules come to a parenthesis with as many
groups open as are allowed. Whatever a rule accepts, it leaves as many groups open as it found.

The automaton for viable kinds tells where this happens. Its depth is the number of groups
that the tokens before leave open, so it never gets through a parenthesis at which this
number is the limit. The parser that has no limit gets through the first one, or has failed
before, or fails there because the parenthesis stands between brackets.
-/

namespace RegexCompiler

/-! ### Depth -/

namespace Parser

/-- If the reply accepts, so many groups are open where it stops. -/
def Reply.Leaves {α : Type} (depth : Nat) : Reply α → Prop
  | .accepted _ after => after.depth = depth
  | .rejected _ _ => True
  | .broken _ => True

/-- A rule after a rule leaves as many groups open as the second does. -/
theorem Reply.Leaves.andThen {α β : Type} {depth final : Nat} {reply : Reply α}
    {proceed : α → Cursor → Reply β} (first : reply.Leaves depth)
    (next : ∀ value after, after.depth = depth → (proceed value after).Leaves final) :
    (reply.andThen proceed).Leaves final := by
  cases reply with
  | accepted value after => exact next value after first
  | rejected error stop => trivial
  | broken fault => trivial

/-- An optional token opens no group. -/
theorem Cursor.accept_depth (cursor : Cursor) (kind : Kind) :
    (cursor.accept kind).2.depth = cursor.depth := by
  unfold Cursor.accept
  split <;> rfl

/-- A required token opens no group. -/
theorem Cursor.expect_leaves (cursor : Cursor) (kind : Kind) :
    (cursor.expect kind).Leaves cursor.depth := by
  unfold Cursor.expect
  split
  · rfl
  · trivial

/-- A quantifier opens no group. -/
theorem quantify_depth (term : Term) (cursor : Cursor) :
    (quantify term cursor).2.depth = cursor.depth := by
  unfold quantify
  split
  · rfl
  · exact cursor.advance.accept_depth .question

/-- A member that begins with a literal opens no group, also where a `-` is put back. -/
theorem literalMember_leaves (cursor : Cursor) : (literalMember cursor).Leaves cursor.depth := by
  simp only [literalMember]
  split
  · split
    · rfl
    · cases restored : cursor.advance.advance.unget cursor.advance.token with
      | ok back =>
        rw [Cursor.unget, Scanner.pushback] at restored
        split at restored
        · simp [Except.map] at restored
        · obtain rfl := Except.ok.inj restored
          rfl
      | error cause => trivial
  · rfl

/-- The loop between brackets opens no group. -/
theorem members_leaves (fuel : Nat) (found : List Member) (cursor : Cursor) :
    (members fuel found cursor).Leaves cursor.depth := by
  induction fuel generalizing found cursor with
  | zero => trivial
  | succ fuel inductionHypothesis =>
    rw [members]
    split
    · apply (literalMember_leaves cursor).andThen
      intro member after kept
      exact kept ▸ inductionHypothesis (member :: found) after
    · split
      · exact inductionHypothesis (.single cursor.token :: found) cursor.advance
      · rfl

/-- A character class opens no group. -/
theorem charClass_leaves (fuel : Nat) (cursor : Cursor) :
    (charClass fuel cursor).Leaves cursor.depth := by
  rw [charClass]
  apply (members_leaves fuel [] (cursor.advance.accept .caret).2).andThen
  intro members after kept
  apply (after.expect_leaves .rightBracket).andThen
  intro closing stop same
  exact same.trans (kept.trans (cursor.advance.accept_depth .caret))

/-- Whatever a rule accepts, it leaves as many groups open as it found. -/
structure RulesBalance (limit : Option Nat) (fuel : Nat) : Prop where
  regex : ∀ earlier cursor, (Parser.regex limit fuel earlier cursor).Leaves cursor.depth
  sequence : ∀ found cursor, (Parser.sequence limit fuel found cursor).Leaves cursor.depth
  expr : ∀ cursor, (Parser.expr limit fuel cursor).Leaves cursor.depth
  term : ∀ cursor, (Parser.term limit fuel cursor).Leaves cursor.depth

section Balance

variable {limit : Option Nat} {fuel : Nat}

/-- A regex, given what the rules leave open on less fuel. -/
theorem regex_leaves (rules : RulesBalance limit fuel) (earlier : List (Sequence × Token))
    (cursor : Cursor) : (regex limit (fuel + 1) earlier cursor).Leaves cursor.depth := by
  rw [regex]
  apply (rules.sequence [] cursor).andThen
  intro last after kept
  split
  · exact kept ▸ rules.regex ((last, after.token) :: earlier) after.advance
  · exact kept

/-- A sequence, given what the rules leave open on less fuel. -/
theorem sequence_leaves (rules : RulesBalance limit fuel) (found : List Expr) (cursor : Cursor) :
    (sequence limit (fuel + 1) found cursor).Leaves cursor.depth := by
  rw [sequence]
  split
  · rfl
  · apply (rules.expr cursor).andThen
    intro expr after kept
    exact kept ▸ rules.sequence (expr :: found) after

/-- An expression, given what the rules leave open on less fuel. -/
theorem expr_leaves (rules : RulesBalance limit fuel) (cursor : Cursor) :
    (expr limit (fuel + 1) cursor).Leaves cursor.depth := by
  rw [expr]
  apply (rules.term cursor).andThen
  intro term after kept
  exact (quantify_depth term after).trans kept

/-- A term, given what the rules leave open on less fuel. A group is left before the
parenthesis that closes it is looked at. -/
theorem term_leaves (rules : RulesBalance limit fuel) (cursor : Cursor) :
    (term limit (fuel + 1) cursor).Leaves cursor.depth := by
  rw [term]
  split
  · rfl
  · rfl
  · rfl
  · split
    · trivial
    · apply (rules.regex [] cursor.advance.enter).andThen
      intro regex after kept
      apply (after.leave.expect_leaves .rightParen).andThen
      intro closing stop same
      calc stop.depth = after.depth - 1 := same
        _ = cursor.depth := by rw [kept]; rfl
  · exact charClass_leaves fuel cursor
  · trivial

/-- With any limit and any fuel, the rules leave as many groups open as they found. -/
theorem rulesBalance (limit : Option Nat) (fuel : Nat) : RulesBalance limit fuel := by
  induction fuel with
  | zero =>
    exact ⟨fun _ _ => trivial, fun _ _ => trivial, fun _ => trivial, fun _ => trivial⟩
  | succ fuel rules =>
    exact ⟨regex_leaves rules, sequence_leaves rules, expr_leaves rules, term_leaves rules⟩

end Balance

/-! ### Rules with and without a limit -/

/-- A reply under a limit is the one without it, or rejects because of the limit. -/
def Reply.Limits {α : Type} (limit : Nat) (free limited : Reply α) : Prop :=
  limited = free ∨ ∃ error stop, limited = .rejected error stop ∧ error.expected = .nesting limit

/-- A rule after a rule is limited if both are. -/
theorem Reply.Limits.andThen {α β : Type} {limit : Nat} {free limited : Reply α}
    {proceed proceed' : α → Cursor → Reply β} (first : Limits limit free limited)
    (next : ∀ value after, Limits limit (proceed value after) (proceed' value after)) :
    Limits limit (free.andThen proceed) (limited.andThen proceed') := by
  rcases first with rfl | ⟨error, stop, rfl, reached⟩
  · cases limited with
    | accepted value after => exact next value after
    | rejected error stop => exact .inl rfl
    | broken fault => exact .inl rfl
  · exact .inr ⟨error, stop, rfl, reached⟩

/-- How the rules under a limit compare with those that have none. -/
structure RulesLimit (limit fuel : Nat) : Prop where
  regex : ∀ earlier cursor, Reply.Limits limit (Parser.regex none fuel earlier cursor)
    (Parser.regex (some limit) fuel earlier cursor)
  sequence : ∀ found cursor, Reply.Limits limit (Parser.sequence none fuel found cursor)
    (Parser.sequence (some limit) fuel found cursor)
  expr : ∀ cursor, Reply.Limits limit (Parser.expr none fuel cursor)
    (Parser.expr (some limit) fuel cursor)
  term : ∀ cursor, Reply.Limits limit (Parser.term none fuel cursor)
    (Parser.term (some limit) fuel cursor)

section Limit

variable {limit fuel : Nat}

/-- A regex, given how the rules compare on less fuel. -/
theorem regex_limits (rules : RulesLimit limit fuel) (earlier : List (Sequence × Token))
    (cursor : Cursor) : Reply.Limits limit (regex none (fuel + 1) earlier cursor)
      (regex (some limit) (fuel + 1) earlier cursor) := by
  rw [regex, regex]
  apply (rules.sequence [] cursor).andThen
  intro last after
  split
  · exact rules.regex _ _
  · exact .inl rfl

/-- A sequence, given how the rules compare on less fuel. -/
theorem sequence_limits (rules : RulesLimit limit fuel) (found : List Expr) (cursor : Cursor) :
    Reply.Limits limit (sequence none (fuel + 1) found cursor)
      (sequence (some limit) (fuel + 1) found cursor) := by
  rw [sequence, sequence]
  split
  · exact .inl rfl
  · apply (rules.expr cursor).andThen
    intro expr after
    exact rules.sequence _ _

/-- An expression, given how the rules compare on less fuel. -/
theorem expr_limits (rules : RulesLimit limit fuel) (cursor : Cursor) :
    Reply.Limits limit (expr none (fuel + 1) cursor) (expr (some limit) (fuel + 1) cursor) := by
  rw [expr, expr]
  apply (rules.term cursor).andThen
  intro term after
  exact .inl rfl

/-- A term, given how the rules compare on less fuel. Only here is the limit looked at. -/
theorem term_limits (rules : RulesLimit limit fuel) (cursor : Cursor) :
    Reply.Limits limit (term none (fuel + 1) cursor) (term (some limit) (fuel + 1) cursor) := by
  rw [term, term]
  split
  · exact .inl rfl
  · exact .inl rfl
  · exact .inl rfl
  · rw [if_neg (Option.some_ne_none cursor.depth).symm]
    by_cases full : some limit = some cursor.depth
    · rw [if_pos full]
      obtain rfl := Option.some.inj full
      exact .inr ⟨_, cursor, rfl, rfl⟩
    · rw [if_neg full]
      apply (rules.regex [] cursor.advance.enter).andThen
      intro regex after
      exact .inl rfl
  · exact .inl rfl
  · exact .inl rfl

/-- With any fuel, the rules under a limit reply as those that have none or reject because
of the limit. -/
theorem rulesLimit (limit fuel : Nat) : RulesLimit limit fuel := by
  induction fuel with
  | zero => exact ⟨fun _ _ => .inl rfl, fun _ _ => .inl rfl, fun _ => .inl rfl, fun _ => .inl rfl⟩
  | succ fuel rules =>
    exact ⟨regex_limits rules, sequence_limits rules, expr_limits rules, term_limits rules⟩

end Limit

/-- Replies that are the same have the same verdict. -/
theorem Reply.verdict_congr {α : Type} {reply other : Reply α} (same : reply = other)
    (settled : reply.isSettled = true) (settled' : other.isSettled = true) :
    reply.verdict settled = other.verdict settled' := by
  subst same
  rfl

end Parser

/-- Parsing under a limit gives the verdict of parsing without one, or an error that asks for
fewer groups. -/
theorem parseWithin_some (limit : Nat) (pattern : String) :
    parseWithin (some limit) pattern = parseWithin none pattern ∨
      ∃ error, parseWithin (some limit) pattern = .error error ∧
        error.expected = .nesting limit := by
  have limited : Parser.Reply.Limits limit (parseReply none pattern)
      (parseReply (some limit) pattern) := by
    apply ((Parser.rulesLimit limit _).regex [] _).andThen
    intro tree after
    exact .inl rfl
  rcases limited with same | ⟨error, stop, rejected, reached⟩
  · exact .inl (Parser.Reply.verdict_congr same _ _)
  · exact .inr ⟨error, (parseWithin_eq_error_iff _ _ _).mpr ⟨stop, rejected⟩, reached⟩

/-! ### Where the automaton meets the limit -/

/-- The token at this index opens a group while `limit` others are open. -/
def Overflows (limit : Nat) (tokens : List Token) (index : Nat) : Prop :=
  tokens[index]?.map Token.kind = some .leftParen ∧ openGroups (tokens.take index) = limit

/-- The first token that opens a group while `limit` others are open is at this index. -/
def FirstOverflow (limit : Nat) (tokens : List Token) (index : Nat) : Prop :=
  Overflows limit tokens index ∧ ∀ earlier < index, ¬ Overflows limit tokens earlier

instance (limit : Nat) (tokens : List Token) (index : Nat) :
    Decidable (Overflows limit tokens index) :=
  inferInstanceAs (Decidable (_ ∧ _))

instance (limit : Nat) (tokens : List Token) (index : Nat) :
    Decidable (FirstOverflow limit tokens index) :=
  inferInstanceAs (Decidable (_ ∧ ∀ earlier < index, _))

namespace Stage

/-- Outside brackets a step changes the depth by what its token opens or closes. -/
theorem outsideStep_depth {limit : Option Nat} {depth : Nat} {next : Stage} {token : Token}
    (stepped : outsideStep limit depth token.kind = some next) :
    (next.depth : Int) = depth + openGroups [token] := by
  cases kind : token.kind with
  | leftParen =>
    obtain ⟨_, rfl⟩ : limit ≠ some depth ∧ ⟨depth + 1, .start⟩ = next := by
      simpa [outsideStep, kind] using stepped
    simp [openGroups, kind]
  | rightParen =>
    obtain ⟨nested, rfl⟩ : depth ≠ 0 ∧ ⟨depth - 1, .term⟩ = next := by
      simpa [outsideStep, kind] using stepped
    have closed : openGroups [token] = -1 := by simp [openGroups, kind]
    rw [closed]
    dsimp only
    omega
  | endOfInput =>
    obtain ⟨rfl, rfl⟩ : depth = 0 ∧ ⟨0, .finished⟩ = next := by
      simpa [outsideStep, kind] using stepped
    simp [openGroups, kind]
  | literal | dot | escape | leftBracket | pipe =>
    obtain rfl : ⟨depth, _⟩ = next := by simpa [outsideStep, kind] using stepped
    simp [openGroups, kind]
  | rightBracket | plus | minus | star | question | caret =>
    simp [outsideStep, kind] at stepped

/-- Between brackets no token opens or closes a group. -/
theorem insideStep_depth {depth : Nat} {next : Stage} {token : Token}
    (stepped : insideStep depth token.kind = some next) :
    (next.depth : Int) = depth + openGroups [token] := by
  cases kind : token.kind with
  | literal | minus | rightBracket =>
    obtain rfl : ⟨depth, _⟩ = next := by simpa [insideStep, kind] using stepped
    simp [openGroups, kind]
  | _ => simp [insideStep, kind] at stepped

/-- A step changes the depth by what its token opens or closes. -/
theorem step_depth {limit : Option Nat} {stage next : Stage} {token : Token}
    (stepped : stage.step limit token.kind = some next) :
    (next.depth : Int) = stage.depth + openGroups [token] := by
  obtain ⟨depth, mode⟩ := stage
  -- a kind that the mode takes in its own way is neither parenthesis
  cases mode with
  | start => exact outsideStep_depth stepped
  | term =>
    by_cases repeats : token.kind.IsOperator
    · obtain rfl : ⟨depth, .operator⟩ = next := by simpa [step, repeats] using stepped
      rcases repeats with kind | kind | kind <;> simp [openGroups, kind]
    · exact outsideStep_depth (by simpa only [step, if_neg repeats] using stepped)
  | operator =>
    by_cases mark : token.kind = .question
    · obtain rfl : ⟨depth, .start⟩ = next := by simpa [step, mark] using stepped
      simp [openGroups, mark]
    · exact outsideStep_depth (by simpa only [step, if_neg mark] using stepped)
  | bracket =>
    by_cases caret : token.kind = .caret
    · obtain rfl : ⟨depth, .member⟩ = next := by simpa [step, caret] using stepped
      simp [openGroups, caret]
    · exact insideStep_depth (by simpa only [step, if_neg caret] using stepped)
  | member => exact insideStep_depth stepped
  | finished => simp [step] at stepped

/-- A walk changes the depth by what its tokens open and leave open. -/
theorem walk_depth {limit : Option Nat} {stage reached : Stage} {tokens : List Token}
    (walked : stage.walk limit (tokens.map Token.kind) = some reached) :
    (reached.depth : Int) = stage.depth + openGroups tokens := by
  induction tokens generalizing stage with
  | nil =>
    obtain rfl := Option.some.inj walked
    exact (Int.add_zero _).symm
  | cons token others inductionHypothesis =>
    rw [List.map_cons, walk_cons] at walked
    obtain ⟨next, stepped, later⟩ := Option.bind_eq_some_iff.mp walked
    have parts := openGroups_append [token] others
    rw [List.singleton_append] at parts
    rw [inductionHypothesis later, step_depth stepped, parts, Int.add_assoc]

/-- A step under a limit is possible without one. -/
theorem step_unlimited {limit : Nat} {stage next : Stage} {kind : Kind}
    (stepped : stage.step (some limit) kind = some next) : stage.step none kind = some next := by
  have outside {depth : Nat} (led : outsideStep (some limit) depth kind = some next) :
      outsideStep none depth kind = some next := by
    cases kind <;> simp_all [outsideStep]
  obtain ⟨depth, mode⟩ := stage
  cases mode with
  | start => exact outside stepped
  | term =>
    by_cases repeats : kind.IsOperator
    · simpa only [step, if_pos repeats] using stepped
    · simp only [step, if_neg repeats] at stepped ⊢
      exact outside stepped
  | operator =>
    by_cases mark : kind = .question
    · simpa only [step, if_pos mark] using stepped
    · simp only [step, if_neg mark] at stepped ⊢
      exact outside stepped
  | bracket | member | finished => exact stepped

/-- A walk under a limit is possible without one. -/
theorem walk_unlimited {limit : Nat} {stage reached : Stage} {kinds : List Kind}
    (walked : stage.walk (some limit) kinds = some reached) :
    stage.walk none kinds = some reached := by
  induction kinds generalizing stage with
  | nil => exact walked
  | cons kind others inductionHypothesis =>
    rw [walk_cons] at walked
    obtain ⟨next, stepped, later⟩ := Option.bind_eq_some_iff.mp walked
    exact walk_step (step_unlimited stepped) (inductionHypothesis later)

/-- No step under a limit opens a group when the limit is reached. -/
theorem step_leftParen_full (limit : Nat) (mode : Mode) :
    (⟨limit, mode⟩ : Stage).step (some limit) .leftParen = none := by
  cases mode <;> simp [step, outsideStep, insideStep, Kind.IsOperator]

/-- A walk under a limit passes no token that overflows. -/
theorem not_overflows_of_walk {limit : Nat} {tokens : List Token} {reached : Stage}
    (walked : Stage.initial.walk (some limit) (tokens.map Token.kind) = some reached)
    (index : Nat) : ¬ Overflows limit tokens index := by
  rintro ⟨opens, full⟩
  obtain ⟨token, found, parenthesis⟩ := Option.map_eq_some_iff.mp opens
  obtain ⟨inside, rfl⟩ := List.getElem?_eq_some_iff.mp found
  have split : tokens.map Token.kind = (tokens.take index).map Token.kind ++
      .leftParen :: (tokens.drop (index + 1)).map Token.kind := by
    rw [← parenthesis, ← List.map_cons, ← List.drop_eq_getElem_cons inside, ← List.map_append,
      List.take_append_drop]
  rw [split, walk_append] at walked
  obtain ⟨middle, early, late⟩ := Option.bind_eq_some_iff.mp walked
  rw [walk_cons] at late
  obtain ⟨next, stepped, _⟩ := Option.bind_eq_some_iff.mp late
  have depth := walk_depth early
  have reachedLimit : middle.depth = limit := by
    have start : ((Stage.initial.depth : Nat) : Int) = 0 := rfl
    omega
  obtain ⟨_, mode⟩ := middle
  obtain rfl := reachedLimit
  rw [step_leftParen_full] at stepped
  simp at stepped

end Stage

/-- Whether a token overflows depends on no token behind it. -/
theorem overflows_append {limit index : Nat} {front : List Token} (rest : List Token)
    (inside : index < front.length) :
    Overflows limit (front ++ rest) index ↔ Overflows limit front index := by
  rw [Overflows, Overflows, List.getElem?_append_left inside,
    List.take_append_of_le_length (Nat.le_of_lt inside)]

/-- There is no more than one first overflow. -/
theorem FirstOverflow.unique {limit index other : Nat} {tokens : List Token}
    (first : FirstOverflow limit tokens index) (second : FirstOverflow limit tokens other) :
    index = other := by
  rcases Nat.lt_trichotomy index other with less | same | more
  · exact absurd first.1 (second.2 index less)
  · exact same
  · exact absurd second.1 (first.2 other more)

/-- Where the automaton halts because of the limit, there is the first overflow, and without
the limit the automaton gets through it. -/
theorem Halts.firstOverflow {limit : Nat} {before : List Token} {token : Token}
    {error : SyntaxError} (halts : Halts (some limit) before token error)
    (asks : error.expected = .nesting limit) (after : List Token) :
    token.kind = .leftParen ∧ FirstOverflow limit (before ++ token :: after) before.length ∧
      ∃ reached, Stage.initial.walk none ((before ++ [token]).map Token.kind) = some reached := by
  obtain ⟨stage, walked, refused⟩ := halts
  rcases refused.asks with ⟨kind, next, _, other⟩ | ⟨_, parenthesis, full, outside⟩
  · rcases other with other | ⟨other, _⟩ <;> simp [asks] at other
  · obtain rfl := Option.some.inj full
    have depth := Stage.walk_depth walked
    have opened : openGroups before = stage.depth := by
      rw [depth]
      exact (Int.zero_add _).symm
    refine ⟨parenthesis, ⟨⟨?_, ?_⟩, ?_⟩, ⟨stage.depth + 1, .start⟩, ?_⟩
    · simp [parenthesis]
    · rw [List.take_left' rfl]
      exact opened
    · intro earlier less
      rw [overflows_append _ less]
      exact Stage.not_overflows_of_walk walked earlier
    · rw [List.map_append]
      refine Stage.walk_trans (Stage.walk_unlimited walked) (Stage.walk_step ?_ rfl)
      rw [parenthesis, Stage.step_outside outside (by decide)]
      rfl

/-! ### Verdicts with and without a limit -/

/-- Without a limit, parsing fails at a token up to this index. -/
def FailsUpTo (pattern : String) (index : Nat) : Prop :=
  ∃ expected, ∃ position ≤ index, ∃ token,
    (Scanner.ofPattern pattern).stream[position]? = some token ∧
      parseWithin none pattern = .error (.ofToken expected token)

/-- Without an overflow, or with an earlier failure, a limit changes nothing. -/
theorem parseWithin_eq_unlimited {limit : Nat} {pattern : String}
    (fails : ∀ index, FirstOverflow limit (Scanner.ofPattern pattern).stream index →
      FailsUpTo pattern index) :
    parseWithin (some limit) pattern = parseWithin none pattern := by
  rcases parseWithin_some limit pattern with same | ⟨error, failed, asks⟩
  · exact same
  · exfalso
    obtain ⟨before, token, after, split, halts⟩ :=
      (parseWithin_eq_error_iff_halts _ pattern error).mp failed
    obtain ⟨_, first, reached, through⟩ := halts.firstOverflow asks after
    rw [← split] at first
    obtain ⟨expected, position, up, other, found, unlimited⟩ := fails _ first
    obtain ⟨before', token', after', split', halts'⟩ :=
      (parseWithin_eq_error_iff_halts _ pattern _).mp unlimited
    -- the error names one token only, so it is where the automaton halts without a limit
    have place : position = before'.length := by
      refine (List.getElem?_inj ?_ (nodup_span_stream pattern)).mp ?_
      · rw [List.length_map]
        exact (List.getElem?_eq_some_iff.mp found).1
      · rw [List.getElem?_map, List.getElem?_map, found, split', List.getElem?_append_right
          (Nat.le_refl _), Nat.sub_self]
        exact congrArg (fun error => some error.span) halts'.error_eq
    have begins : before ++ [token] <+: (Scanner.ofPattern pattern).stream :=
      ⟨after, by simp [split]⟩
    have begins' : before' ++ [token'] <+: (Scanner.ofPattern pattern).stream :=
      ⟨after', by simp [split']⟩
    refine halts'.not_isPrefix through (List.prefix_of_prefix_length_le begins' begins ?_)
    simp only [List.length_append, List.length_singleton]
    omega

/-- Between brackets no parenthesis can stand, so the limit plays no part there. -/
example : FirstOverflow 1 (Scanner.ofPattern "([(").stream 2 ∧
    parseWithin (some 1) "([(" = .error ⟨.token .rightBracket, .leftParen, ⟨2, 3⟩⟩ :=
  ⟨by decide, rfl⟩

/-- With an overflow and no earlier failure, parsing fails at the first overflow. -/
theorem parseWithin_eq_nesting {limit index : Nat} {pattern : String}
    (first : FirstOverflow limit (Scanner.ofPattern pattern).stream index)
    (passes : ¬ FailsUpTo pattern index) :
    ∃ token, (Scanner.ofPattern pattern).stream[index]? = some token ∧
      parseWithin (some limit) pattern = .error ⟨.nesting limit, .leftParen, token.span⟩ := by
  cases verdict : parseWithin (some limit) pattern with
  | ok tree =>
    obtain ⟨stop, accepted⟩ := (parseWithin_eq_ok_iff _ pattern tree).mp verdict
    obtain ⟨reached, walked⟩ := Parser.pattern_walks _ _ pattern tree stop accepted
    rw [Parser.Cursor.ofPattern_stream] at walked
    exact absurd first.1 (Stage.not_overflows_of_walk walked index)
  | error error =>
    obtain ⟨before, token, after, split, halts⟩ :=
      (parseWithin_eq_error_iff_halts _ pattern error).mp verdict
    have found : (Scanner.ofPattern pattern).stream[before.length]? = some token := by
      simp [split]
    rcases parseWithin_some limit pattern with same | ⟨other, failed, asks⟩
    · have reach : before.length ≤ index := by
        by_contra short
        obtain ⟨stage, walked, _⟩ := halts
        rw [split] at first
        exact Stage.not_overflows_of_walk walked index
          ((overflows_append _ (by omega)).mp first.1)
      refine absurd ⟨error.expected, before.length, reach, token, found, ?_⟩ passes
      rw [← same, verdict]
      exact congrArg _ halts.error_eq
    · obtain rfl : error = other := Except.error.inj (verdict.symm.trans failed)
      obtain ⟨parenthesis, overflow, _⟩ := halts.firstOverflow asks after
      rw [← split] at overflow
      obtain rfl := first.unique overflow
      refine ⟨token, found, ?_⟩
      rw [halts.error_eq, asks, SyntaxError.ofToken, parenthesis]

/-! ### Nesting of trees -/

mutual

/-- Number of groups inside one another in a regex. Those side by side do not add up. -/
def Regex.nesting : Regex → Nat
  | .single sequence => sequence.nesting
  | .alternate sequence _ rest => max sequence.nesting rest.nesting

/-- As for a regex, in a sequence. -/
def Sequence.nesting : Sequence → Nat
  | .empty => 0
  | .last expr => expr.nesting
  | .link expr tail => max expr.nesting tail.nesting

/-- As for a regex, in an expression. -/
def Expr.nesting : Expr → Nat
  | .mk term _ => term.nesting

/-- As for a regex, in a term. -/
def Term.nesting : Term → Nat
  | .atom _ => 0
  | .group _ regex _ => regex.nesting + 1
  | .charClass _ _ _ _ => 0

end

mutual

/-- A regex that conforms at all conforms within a limit if its nesting is. -/
theorem Regex.Conforms.iff_nesting_le {nesting limit : Nat} {regex : Regex}
    (conforms : regex.Conforms nesting) : regex.Conforms limit ↔ regex.nesting ≤ limit := by
  cases regex with
  | single sequence =>
    simp only [Regex.Conforms, Regex.nesting] at conforms ⊢
    exact Sequence.Conforms.iff_nesting_le conforms
  | alternate sequence pipe rest =>
    simp only [Regex.Conforms, Regex.nesting] at conforms ⊢
    obtain ⟨first, isPipe, others⟩ := conforms
    rw [Sequence.Conforms.iff_nesting_le first, Regex.Conforms.iff_nesting_le others,
      Nat.max_le]
    simp only [isPipe, true_and]

/-- A sequence that conforms at all conforms within a limit if its nesting is. -/
theorem Sequence.Conforms.iff_nesting_le {nesting limit : Nat} {sequence : Sequence}
    (conforms : sequence.Conforms nesting) :
    sequence.Conforms limit ↔ sequence.nesting ≤ limit := by
  cases sequence with
  | empty => simp only [Sequence.Conforms, Sequence.nesting, Nat.zero_le]
  | last expr =>
    simp only [Sequence.Conforms, Sequence.nesting] at conforms ⊢
    exact Expr.Conforms.iff_nesting_le conforms
  | link expr tail =>
    simp only [Sequence.Conforms, Sequence.nesting] at conforms ⊢
    rw [Expr.Conforms.iff_nesting_le conforms.1, Sequence.Conforms.iff_nesting_le conforms.2,
      Nat.max_le]

/-- An expression that conforms at all conforms within a limit if its nesting is. -/
theorem Expr.Conforms.iff_nesting_le {nesting limit : Nat} {expr : Expr}
    (conforms : expr.Conforms nesting) : expr.Conforms limit ↔ expr.nesting ≤ limit := by
  cases expr with
  | mk term quantifier =>
    simp only [Expr.Conforms, Expr.nesting] at conforms ⊢
    rw [Term.Conforms.iff_nesting_le conforms.1]
    exact and_iff_left conforms.2

/-- A term that conforms at all conforms within a limit if its nesting is. -/
theorem Term.Conforms.iff_nesting_le {nesting limit : Nat} {term : Term}
    (conforms : term.Conforms nesting) : term.Conforms limit ↔ term.nesting ≤ limit := by
  cases term with
  | atom token =>
    simp only [Term.Conforms, Term.nesting, Nat.zero_le] at conforms ⊢
    exact iff_true_intro conforms
  | group opening regex closing =>
    simp only [Term.Conforms, Term.nesting] at conforms ⊢
    obtain ⟨opens, closes, fewer, _, body⟩ := conforms
    cases limit with
    | zero => simp
    | succ less =>
      have inner : regex.Conforms less ↔ regex.nesting ≤ less :=
        Regex.Conforms.iff_nesting_le body
      simp [opens, closes, inner]
  | charClass opening negation members closing =>
    simp only [Term.Conforms, Term.nesting, Nat.zero_le] at conforms ⊢
    exact iff_true_intro conforms

end

/-- Tokens open no more groups than there are tokens. -/
theorem openGroups_le_length (tokens : List Token) : openGroups tokens ≤ tokens.length := by
  have most := List.count_le_length (l := tokens.map Token.kind) (a := .leftParen)
  rw [List.length_map] at most
  rw [openGroups]
  omega

/-- What is accepted without a limit is a canonical tree of the pattern's tokens, and it
conforms with some nesting. -/
theorem parseWithin_none_eq_ok {pattern : String} {tree : Regex}
    (parsed : parseWithin none pattern = .ok tree) :
    (∃ nesting, tree.Conforms nesting) ∧ tree.Canonical ∧
      tree.tokens = patternTokens pattern := by
  -- with as many groups to spare as there are tokens, the limit is never reached
  have same : parseWithin (some (Scanner.ofPattern pattern).stream.length) pattern =
      parseWithin none pattern := by
    refine parseWithin_eq_unlimited fun index first => ?_
    obtain ⟨⟨opens, full⟩, _⟩ := first
    obtain ⟨token, found, _⟩ := Option.map_eq_some_iff.mp opens
    have inside := (List.getElem?_eq_some_iff.mp found).1
    have most := openGroups_le_length ((Scanner.ofPattern pattern).stream.take index)
    rw [full, List.length_take] at most
    omega
  obtain ⟨stop, accepted⟩ := (parseWithin_eq_ok_iff _ pattern tree).mp (same.trans parsed)
  obtain ⟨conforms, tokens⟩ := Parser.pattern_spells _ _ pattern tree stop accepted
  exact ⟨⟨_, conforms⟩, Parser.pattern_canonical accepted, tokens⟩

/-- A tree is accepted under the limit if it is accepted without one and its groups are not
too many inside one another. -/
theorem parse_eq_ok_iff_nesting_le (pattern : String) (tree : Regex) :
    parse pattern = .ok tree ↔
      parseWithin none pattern = .ok tree ∧ tree.nesting ≤ nestingLimit := by
  constructor
  · intro parsed
    have conforms := ((parse_eq_ok_iff pattern tree).mp parsed).1
    refine ⟨?_, conforms.iff_nesting_le.mp conforms⟩
    rcases parseWithin_some nestingLimit pattern with same | ⟨error, failed, _⟩
    · exact same.symm.trans parsed
    · exact absurd (parsed.symm.trans failed) (by simp)
  · rintro ⟨parsed, shallow⟩
    obtain ⟨⟨nesting, conforms⟩, canonical, tokens⟩ := parseWithin_none_eq_ok parsed
    exact (parse_eq_ok_iff pattern tree).mpr
      ⟨conforms.iff_nesting_le.mpr shallow, canonical, tokens⟩

/-- The limit on nested groups changes nothing else. Let the first overflow be the first
parenthesis that opens a group while as many are open as the limit allows. If there is
none, or parsing without the limit fails there or before, the limit makes no difference;
otherwise parsing fails at the first overflow and asks for fewer groups. A tree that is
accepted without the limit is accepted if no more groups than that are inside one another,
however many there are side by side. Every rule that accepts leaves as many groups open as
it found. -/
theorem parse_limit_only (pattern : String) :
    ((∀ index, FirstOverflow nestingLimit (Scanner.ofPattern pattern).stream index →
      FailsUpTo pattern index) → parse pattern = parseWithin none pattern) ∧
    (∀ index, FirstOverflow nestingLimit (Scanner.ofPattern pattern).stream index →
      ¬ FailsUpTo pattern index →
      ∃ token, (Scanner.ofPattern pattern).stream[index]? = some token ∧
        parse pattern = .error ⟨.nesting nestingLimit, .leftParen, token.span⟩) ∧
    (∀ tree, parse pattern = .ok tree ↔
      parseWithin none pattern = .ok tree ∧ tree.nesting ≤ nestingLimit) ∧
    ∀ limit fuel, Parser.RulesBalance limit fuel :=
  ⟨parseWithin_eq_unlimited, fun _ first passes => parseWithin_eq_nesting first passes,
    parse_eq_ok_iff_nesting_le pattern, Parser.rulesBalance⟩

end RegexCompiler
