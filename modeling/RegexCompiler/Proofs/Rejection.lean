import RegexCompiler.Proofs.Viability

/-!
# Where a parse fails

While the parser reads tokens, the automaton for viable kinds reads their kinds. Each
rule begins and ends at a stage that fits the cursor, and a rule that rejects a token
has led the automaton to a stage at which the kind of that token cannot stand. What the
error asks for depends on that stage and that kind alone.

It follows that the rejected token is the first that leaves no way to complete the
pattern, and that what the error asks for would have left one.
-/

namespace RegexCompiler

/-- What is asked for in place of a kind that cannot stand here. -/
def Stage.wanted (stage : Stage) (kind : Kind) : Expected :=
  match stage.mode with
  | .bracket | .member => .token .rightBracket
  | .start | .term | .operator | .finished =>
    match kind with
    | .rightParen => .token .endOfInput
    | .endOfInput => .token .rightParen
    | .leftParen => .nesting stage.depth
    | _ => .term

/-- Outside brackets the mode has no part in what is asked for. -/
theorem Stage.wanted_outside {stage : Stage} {kind : Kind} (outside : stage.mode.IsOutside) :
    stage.wanted kind = (⟨stage.depth, .start⟩ : Stage).wanted kind := by
  rcases outside with mode | mode | mode <;> simp only [wanted, mode]

/-- Between brackets only the bracket that closes them is asked for. -/
theorem Stage.wanted_inside {stage : Stage} {kind : Kind} (inside : stage.mode.IsInside) :
    stage.wanted kind = .token .rightBracket := by
  rcases inside with mode | mode <;> simp only [wanted, mode]

/-- The token cannot stand at the stage, and the error says so. -/
structure Stage.Refuses (limit : Option Nat) (stage : Stage) (token : Token)
    (error : SyntaxError) : Prop where
  unfinished : stage.mode ≠ .finished
  stuck : stage.step limit token.kind = none
  error_eq : error = .ofToken (stage.wanted token.kind) token

namespace Parser

/-! ### Rules lead the automaton -/

/-- The stage fits the cursor: it is outside brackets at the same depth, and the current
token quantifies nothing that was read. -/
structure Awaits (stage : Stage) (cursor : Cursor) : Prop where
  depth_eq : cursor.depth = stage.depth
  outside : stage.mode.IsOutside
  step_eq : ∀ limit, stage.step limit cursor.token.kind =
    outsideStep limit stage.depth cursor.token.kind

/-- A stage that fits a cursor is before the end of input. -/
theorem Awaits.unfinished {stage : Stage} {cursor : Cursor} (awaits : Awaits stage cursor) :
    stage.mode ≠ .finished := by
  rcases awaits.outside with mode | mode | mode <;> simp [mode]

/-- A stage that fits a cursor refuses the current token if that cannot stand outside
brackets. -/
theorem Awaits.refuses {limit : Option Nat} {stage : Stage} {cursor : Cursor} {expected : Expected}
    (awaits : Awaits stage cursor)
    (stuck : outsideStep limit stage.depth cursor.token.kind = none)
    (asks : (⟨stage.depth, .start⟩ : Stage).wanted cursor.token.kind = expected) :
    stage.Refuses limit cursor.token (.ofToken expected cursor.token) := by
  refine ⟨awaits.unfinished, (awaits.step_eq limit).trans stuck, ?_⟩
  rw [Stage.wanted_outside awaits.outside, asks]

/-- The tokens that a reply took off the stream lead the automaton on. If the reply
accepts, they lead to a stage where it should arrive; if it rejects a token, to a stage
that refuses this token with the same error. -/
def Reply.Tracks {α : Type} (limit : Option Nat) (stage : Stage)
    (arrives : Stage → Cursor → Prop) (stream : List Token) : Reply α → Prop
  | .accepted _ after => after.scanner.held = none ∧ ∃ consumed reached,
      stream = consumed ++ after.stream ∧
      stage.walk limit (consumed.map Token.kind) = some reached ∧ arrives reached after
  | .rejected error stop => ∃ consumed reached,
      stream = consumed ++ stop.stream ∧
      stage.walk limit (consumed.map Token.kind) = some reached ∧
      reached.Refuses limit stop.token error
  | .broken _ => True

namespace Reply.Tracks

variable {α β : Type} {limit : Option Nat} {stage middle : Stage}
  {arrives : Stage → Cursor → Prop} {stream rest : List Token} {reply : Reply α}

/-- Tokens already taken off lead to where the reply begins. -/
theorem behind (taken : List Token) (split : stream = taken ++ rest)
    (walked : stage.walk limit (taken.map Token.kind) = some middle)
    (tracked : reply.Tracks limit middle arrives rest) :
    reply.Tracks limit stage arrives stream := by
  cases reply with
  | accepted value after =>
    obtain ⟨free, consumed, reached, others, led, arrived⟩ := tracked
    refine ⟨free, taken ++ consumed, reached, ?_, ?_, arrived⟩
    · rw [split, others, List.append_assoc]
    · rw [List.map_append]
      exact Stage.walk_trans walked led
  | rejected error stop =>
    obtain ⟨consumed, reached, others, led, refused⟩ := tracked
    refine ⟨taken ++ consumed, reached, ?_, ?_, refused⟩
    · rw [split, others, List.append_assoc]
    · rw [List.map_append]
      exact Stage.walk_trans walked led
  | broken fault => trivial

/-- A rule after a rule begins where the first arrives. -/
theorem andThen {final : Stage → Cursor → Prop} {proceed : α → Cursor → Reply β}
    (first : reply.Tracks limit stage arrives stream) (tidy : Tidy stream)
    (next : ∀ value after reached, after.scanner.held = none → Tidy after.stream →
      arrives reached after → (proceed value after).Tracks limit reached final after.stream) :
    (reply.andThen proceed).Tracks limit stage final stream := by
  cases reply with
  | accepted value after =>
    obtain ⟨free, consumed, reached, split, led, arrived⟩ := first
    have tidyAfter : Tidy after.stream := (split ▸ tidy).right_of_append
    exact (next value after reached free tidyAfter arrived).behind consumed split led
  | rejected error stop => exact first
  | broken fault => trivial

/-- Where a reply arrives may be described more loosely. -/
theorem imp {wider : Stage → Cursor → Prop} (tracked : reply.Tracks limit stage arrives stream)
    (loosen : ∀ reached after, arrives reached after → wider reached after) :
    reply.Tracks limit stage wider stream := by
  cases reply with
  | accepted value after =>
    obtain ⟨free, consumed, reached, split, led, arrived⟩ := tracked
    exact ⟨free, consumed, reached, split, led, loosen reached after arrived⟩
  | rejected error stop => exact tracked
  | broken fault => trivial

end Reply.Tracks

/-- A required token leads on if it is there, and is refused otherwise. -/
theorem Cursor.expect_tracks {limit : Option Nat} {stage next : Stage} (cursor : Cursor)
    (kind : Kind) (live : kind ≠ .endOfInput) (unfinished : stage.mode ≠ .finished)
    (leads : stage.step limit kind = some next)
    (others : cursor.token.kind ≠ kind → stage.step limit cursor.token.kind = none ∧
      stage.wanted cursor.token.kind = .token kind) :
    (cursor.expect kind).Tracks limit stage
      (fun reached after => reached = next ∧ after.depth = cursor.depth) cursor.stream := by
  rw [Cursor.expect]
  by_cases same : cursor.token.kind = kind
  · rw [if_pos same]
    refine ⟨cursor.advance_held, [cursor.token], next,
      cursor.stream_eq_cons_of_kind kind same live, ?_, rfl, rfl⟩
    simp only [List.map_cons, List.map_nil, Stage.walk_singleton, same, leads]
  · obtain ⟨stuck, asks⟩ := others same
    rw [if_neg same]
    exact ⟨[], stage, rfl, rfl, unfinished, stuck, by rw [asks]⟩

/-- An operator after a term leads on, and so does the mark that makes it lazy. -/
theorem quantify_tracks (limit : Option Nat) (term : Term) (cursor : Cursor)
    (free : cursor.scanner.held = none) :
    (Reply.accepted (quantify term cursor).1 (quantify term cursor).2).Tracks limit
      ⟨cursor.depth, .term⟩
      (fun reached after => Awaits reached after ∧ reached.depth = cursor.depth)
      cursor.stream := by
  cases stands : repetition? cursor.token.kind with
  | none =>
    have plain : ¬ cursor.token.kind.IsOperator := by
      intro repeats
      obtain ⟨repetition, found⟩ := repetition?_of_isOperator repeats
      simp [found] at stands
    simp only [quantify, stands]
    refine ⟨free, [], ⟨cursor.depth, .term⟩, rfl, rfl, ⟨rfl, .inr (.inl rfl), ?_⟩, rfl⟩
    intro bound
    exact if_neg plain
  | some repetition =>
    have repeats : cursor.token.kind.IsOperator :=
      repetition?_operatorKind _ _ stands ▸ repetition.operatorKind_isOperator
    have live : cursor.token.kind ≠ .endOfInput := by
      rcases repeats with plus | star | question <;> simp [*]
    have split := cursor.stream_eq_cons live
    have operates : (⟨cursor.depth, .term⟩ : Stage).step limit cursor.token.kind =
        some ⟨cursor.depth, .operator⟩ := if_pos repeats
    simp only [quantify, stands, Cursor.accept]
    by_cases mark : cursor.advance.token.kind = .question
    · rw [if_pos mark]
      refine ⟨cursor.advance.advance_held, [cursor.token, cursor.advance.token],
        ⟨cursor.depth, .start⟩, ?_, ?_, ⟨rfl, .inl rfl, fun bound => rfl⟩, rfl⟩
      · rw [split, cursor.advance.stream_eq_cons_of_kind _ mark (by decide)]
        rfl
      · have marked : (⟨cursor.depth, .operator⟩ : Stage).step limit cursor.advance.token.kind =
            some ⟨cursor.depth, .start⟩ := if_pos mark
        exact Stage.walk_step operates (Stage.walk_step marked rfl)
    · rw [if_neg mark]
      refine ⟨cursor.advance_held, [cursor.token], ⟨cursor.depth, .operator⟩, split, ?_,
        ⟨rfl, .inr (.inr rfl), ?_⟩, rfl⟩
      · exact Stage.walk_step operates rfl
      · intro bound
        exact if_neg mark

/-- If the reply is a verdict, it accepts in front of such a kind. -/
def Reply.AcceptsBefore {α : Type} (follows : Kind → Prop) : Reply α → Prop
  | .accepted _ after => follows after.token.kind
  | .rejected _ _ => False
  | .broken _ => True

/-- The loop between brackets rejects nothing and stops in front of what is no member. -/
theorem members_acceptsBefore (fuel : Nat) (found : List Member) (cursor : Cursor) :
    (members fuel found cursor).AcceptsBefore fun kind => ¬ kind.IsMember := by
  induction fuel generalizing found cursor with
  | zero => trivial
  | succ fuel inductionHypothesis =>
    rw [members]
    by_cases literal : cursor.token.kind = .literal
    · obtain ⟨member, next, read, _⟩ := literalMember_progress cursor literal
      rw [if_pos literal, read]
      exact inductionHypothesis (member :: found) next
    · rw [if_neg literal]
      by_cases minus : cursor.token.kind = .minus
      · rw [if_pos minus]
        exact inductionHypothesis (.single cursor.token :: found) cursor.advance
      · rw [if_neg minus]
        exact not_or.mpr ⟨literal, minus⟩

/-- The stage fits the cursor between brackets: it is at the same depth, and the current
token does not negate the class. -/
structure AwaitsMember (stage : Stage) (cursor : Cursor) : Prop where
  depth_eq : cursor.depth = stage.depth
  inside : stage.mode.IsInside
  noCaret : stage.mode = .bracket → cursor.token.kind ≠ .caret

/-- Between brackets the current token is read alike everywhere. -/
theorem AwaitsMember.step_eq {stage : Stage} {cursor : Cursor} (awaits : AwaitsMember stage cursor)
    (limit : Option Nat) :
    stage.step limit cursor.token.kind = insideStep stage.depth cursor.token.kind := by
  rcases awaits.inside with mode | mode
  · simp only [Stage.step, mode, if_neg (awaits.noCaret mode)]
  · simp only [Stage.step, mode]

/-- Members lead from between brackets to between brackets, in front of what is none. -/
theorem members_tracks (limit : Option Nat) (fuel : Nat) (cursor : Cursor) (stage : Stage)
    (free : cursor.scanner.held = none) (tidy : Tidy cursor.stream)
    (awaits : AwaitsMember stage cursor) :
    (members fuel [] cursor).Tracks limit stage
      (fun reached after => AwaitsMember reached after ∧ reached.depth = stage.depth ∧
        ¬ after.token.kind.IsMember)
      cursor.stream := by
  have read := members_reads fuel [] cursor (.inl free) tidy
  have stops := members_acceptsBefore fuel [] cursor
  cases reply : members fuel [] cursor with
  | accepted value after =>
    rw [reply] at read stops
    obtain ⟨freeAfter, depth, consumed, split, items, rfl, conform, rfl⟩ := read
    have allMembers : ∀ kind ∈ (items.flatMap Member.tokens).map Token.kind, kind.IsMember := by
      simp only [List.forall_mem_map, List.mem_flatMap]
      rintro token ⟨member, present, inMember⟩
      exact isMember_of_mem_tokens (conform member present) token inMember
    obtain ⟨last, stays, walked⟩ :=
      Stage.walk_members limit stage.depth stage.mode _ awaits.inside allMembers
    refine ⟨freeAfter, _, _, split, walked, ⟨depth.trans awaits.depth_eq, ?_, ?_⟩, rfl, stops⟩
    · rcases stays with ⟨_, rfl⟩ | rfl
      · exact awaits.inside
      · exact .inr rfl
    · rintro rfl
      rcases stays with ⟨nothing, same⟩ | same
      · rw [List.map_eq_nil_iff.mp nothing, List.nil_append] at split
        rw [← (List.cons.inj split).1]
        exact awaits.noCaret same.symm
      · simp at same
  | rejected error stop =>
    rw [reply] at stops
    exact stops.elim
  | broken fault => trivial

/-- Behind a bracket, and behind a caret if one follows it, members are read. -/
theorem Cursor.accept_caret_tracks (limit : Option Nat) (cursor : Cursor) (depth : Nat)
    (same : cursor.depth = depth) (free : cursor.scanner.held = none) :
    (Reply.accepted (cursor.accept .caret).1 (cursor.accept .caret).2).Tracks limit
      ⟨depth, .bracket⟩
      (fun reached after => AwaitsMember reached after ∧ reached.depth = depth)
      cursor.stream := by
  rw [Cursor.accept]
  by_cases caret : cursor.token.kind = .caret
  · have negates : (⟨depth, .bracket⟩ : Stage).step limit cursor.token.kind =
        some ⟨depth, .member⟩ := if_pos caret
    rw [if_pos caret]
    exact ⟨cursor.advance_held, [cursor.token], _,
      cursor.stream_eq_cons_of_kind _ caret (by decide), Stage.walk_step negates rfl,
      ⟨same, .inr rfl, by simp⟩, rfl⟩
  · rw [if_neg caret]
    exact ⟨free, [], _, rfl, rfl, ⟨same, .inl rfl, fun _ => caret⟩, rfl⟩

/-- Between brackets only members and the bracket that closes them can stand. -/
theorem insideStep_eq_none (depth : Nat) (kind : Kind) (noMember : ¬ kind.IsMember)
    (unclosed : kind ≠ .rightBracket) : insideStep depth kind = none := by
  cases kind <;> simp_all [insideStep, Kind.IsMember]

/-- A character class leads to a term. -/
theorem charClass_tracks (limit : Option Nat) (fuel : Nat) (cursor : Cursor) (stage : Stage)
    (awaits : Awaits stage cursor) (tidy : Tidy cursor.stream)
    (bracket : cursor.token.kind = .leftBracket) :
    (charClass fuel cursor).Tracks limit stage
      (fun reached after => reached = ⟨stage.depth, .term⟩ ∧ after.depth = stage.depth)
      cursor.stream := by
  have split := cursor.stream_eq_cons_of_kind _ bracket (by decide)
  have opens : stage.step limit cursor.token.kind = some ⟨stage.depth, .bracket⟩ := by
    rw [awaits.step_eq, bracket]
    rfl
  obtain ⟨freeInner, marks, inner, splitInner, walked, awaitsInner, depthInner⟩ :=
    cursor.advance.accept_caret_tracks limit stage.depth awaits.depth_eq cursor.advance_held
  have whole : cursor.stream =
      (cursor.token :: marks) ++ (cursor.advance.accept .caret).2.stream := by
    rw [split, splitInner]
    rfl
  have tidyInner : Tidy (cursor.advance.accept .caret).2.stream := (whole ▸ tidy).right_of_append
  rw [charClass]
  refine Reply.Tracks.behind (cursor.token :: marks) whole (Stage.walk_step opens walked) ?_
  apply (members_tracks limit fuel _ inner freeInner tidyInner awaitsInner).andThen tidyInner
  rintro members after last freeAfter tidyAfter ⟨awaitsLast, depthLast, noMember⟩
  have closes : last.step limit .rightBracket = some ⟨stage.depth, .term⟩ := by
    rw [← depthInner, ← depthLast]
    exact Stage.step_inside awaitsLast.inside (by decide)
  have unfinished : last.mode ≠ .finished := by
    rcases awaitsLast.inside with mode | mode <;> simp [mode]
  apply (after.expect_tracks .rightBracket (by decide) unfinished closes ?_).andThen tidyAfter
  · rintro closing stop _ freeStop tidyStop ⟨rfl, depthStop⟩
    refine ⟨freeStop, [], _, rfl, rfl, rfl, ?_⟩
    rw [depthStop, awaitsLast.depth_eq, depthLast, depthInner]
  · intro missing
    exact ⟨(awaitsLast.step_eq limit).trans (insideStep_eq_none _ _ noMember missing),
      Stage.wanted_inside awaitsLast.inside⟩

/-- What each rule reads leads the automaton from a stage that fits the cursor to one that
fits the cursor where the rule stops, at the same depth. -/
structure RulesTrack (limit : Option Nat) (fuel : Nat) : Prop where
  regex : ∀ earlier (cursor : Cursor) (stage : Stage), cursor.scanner.held = none →
    Tidy cursor.stream → Awaits stage cursor →
    (Parser.regex limit fuel earlier cursor).Tracks limit stage
      (fun reached after => Awaits reached after ∧ reached.depth = stage.depth ∧
        (after.token.kind = .endOfInput ∨ after.token.kind = .rightParen)) cursor.stream
  sequence : ∀ found (cursor : Cursor) (stage : Stage), cursor.scanner.held = none →
    Tidy cursor.stream → Awaits stage cursor →
    (Parser.sequence limit fuel found cursor).Tracks limit stage
      (fun reached after => Awaits reached after ∧ reached.depth = stage.depth ∧
        endsSequence after.token.kind = true) cursor.stream
  expr : ∀ (cursor : Cursor) (stage : Stage), Tidy cursor.stream → Awaits stage cursor →
    endsSequence cursor.token.kind = false →
    (Parser.expr limit fuel cursor).Tracks limit stage
      (fun reached after => Awaits reached after ∧ reached.depth = stage.depth) cursor.stream
  term : ∀ (cursor : Cursor) (stage : Stage), Tidy cursor.stream → Awaits stage cursor →
    endsSequence cursor.token.kind = false →
    (Parser.term limit fuel cursor).Tracks limit stage
      (fun reached after => reached = ⟨stage.depth, .term⟩ ∧ after.depth = stage.depth)
      cursor.stream

variable {limit : Option Nat} {fuel : Nat}

/-- A regex, given what the rules lead to on less fuel. -/
theorem regex_tracks (rules : RulesTrack limit fuel) (earlier : List (Sequence × Token))
    (cursor : Cursor) (stage : Stage) (free : cursor.scanner.held = none)
    (tidy : Tidy cursor.stream) (awaits : Awaits stage cursor) :
    (regex limit (fuel + 1) earlier cursor).Tracks limit stage
      (fun reached after => Awaits reached after ∧ reached.depth = stage.depth ∧
        (after.token.kind = .endOfInput ∨ after.token.kind = .rightParen)) cursor.stream := by
  rw [regex]
  apply (rules.sequence [] cursor stage free tidy awaits).andThen tidy
  rintro last after reached freeAfter tidyAfter ⟨awaitsAfter, depth, ends⟩
  by_cases pipe : after.token.kind = .pipe
  · have split := after.stream_eq_cons_of_kind _ pipe (by decide)
    have leads : reached.step limit after.token.kind = some ⟨reached.depth, .start⟩ := by
      rw [awaitsAfter.step_eq, pipe]
      rfl
    have fits : Awaits ⟨reached.depth, .start⟩ after.advance :=
      ⟨awaitsAfter.depth_eq, .inl rfl, fun _ => rfl⟩
    rw [if_pos pipe]
    refine Reply.Tracks.behind [after.token] split (Stage.walk_step leads rfl) ?_
    have later := rules.regex ((last, after.token) :: earlier) after.advance _ after.advance_held
      (split ▸ tidyAfter).tail fits
    exact later.imp fun _ _ arrived => ⟨arrived.1, arrived.2.1.trans depth, arrived.2.2⟩
  · rw [if_neg pipe]
    refine ⟨freeAfter, [], reached, rfl, rfl, awaitsAfter, depth, ?_⟩
    cases kind : after.token.kind <;> simp_all [endsSequence]

/-- A sequence, given what the rules lead to on less fuel. -/
theorem sequence_tracks (rules : RulesTrack limit fuel) (found : List Expr)
    (cursor : Cursor) (stage : Stage) (free : cursor.scanner.held = none)
    (tidy : Tidy cursor.stream) (awaits : Awaits stage cursor) :
    (sequence limit (fuel + 1) found cursor).Tracks limit stage
      (fun reached after => Awaits reached after ∧ reached.depth = stage.depth ∧
        endsSequence after.token.kind = true) cursor.stream := by
  rw [sequence]
  by_cases ends : endsSequence cursor.token.kind = true
  · rw [if_pos ends]
    exact ⟨free, [], stage, rfl, rfl, awaits, rfl, ends⟩
  · rw [if_neg ends]
    apply (rules.expr cursor stage tidy awaits (Bool.eq_false_iff.mpr ends)).andThen tidy
    rintro expr after reached freeAfter tidyAfter ⟨awaitsAfter, depth⟩
    have later := rules.sequence (expr :: found) after reached freeAfter tidyAfter awaitsAfter
    exact later.imp fun _ _ arrived => ⟨arrived.1, arrived.2.1.trans depth, arrived.2.2⟩

/-- An expression, given what the rules lead to on less fuel. -/
theorem expr_tracks (rules : RulesTrack limit fuel) (cursor : Cursor) (stage : Stage)
    (tidy : Tidy cursor.stream) (awaits : Awaits stage cursor)
    (continues : endsSequence cursor.token.kind = false) :
    (expr limit (fuel + 1) cursor).Tracks limit stage
      (fun reached after => Awaits reached after ∧ reached.depth = stage.depth)
      cursor.stream := by
  rw [expr]
  apply (rules.term cursor stage tidy awaits continues).andThen tidy
  rintro term after _ freeAfter tidyAfter ⟨rfl, depth⟩
  have quantified := quantify_tracks limit term after freeAfter
  rwa [depth] at quantified

/-- A group, given what the rules lead to on less fuel. The regex inside ends at the
parenthesis that closes the group or at the end of input, which is refused. -/
theorem group_tracks (rules : RulesTrack limit fuel) (cursor : Cursor) (stage : Stage)
    (tidy : Tidy cursor.stream) (awaits : Awaits stage cursor)
    (parenthesis : cursor.token.kind = .leftParen) (notFull : limit ≠ some stage.depth) :
    ((regex limit fuel [] cursor.advance.enter).andThen fun regex after =>
      (after.leave.expect .rightParen).andThen fun closing after =>
        .accepted (Term.group cursor.token regex closing) after).Tracks limit stage
      (fun reached after => reached = ⟨stage.depth, .term⟩ ∧ after.depth = stage.depth)
      cursor.stream := by
  have split := cursor.stream_eq_cons_of_kind _ parenthesis (by decide)
  have tidyInner : Tidy cursor.advance.stream := (split ▸ tidy).tail
  have opens : stage.step limit cursor.token.kind = some ⟨stage.depth + 1, .start⟩ := by
    rw [awaits.step_eq, parenthesis]
    exact if_neg notFull
  have entered : Awaits ⟨stage.depth + 1, .start⟩ cursor.advance.enter :=
    ⟨congrArg (· + 1) awaits.depth_eq, .inl rfl, fun _ => rfl⟩
  refine Reply.Tracks.behind [cursor.token] split (Stage.walk_step opens rfl) ?_
  apply (rules.regex [] cursor.advance.enter _ cursor.advance_held tidyInner entered).andThen
    tidyInner
  rintro regex after reached freeAfter tidyAfter ⟨awaitsAfter, depth, ends⟩
  have left : after.leave.depth = stage.depth := by
    change after.depth - 1 = stage.depth
    rw [awaitsAfter.depth_eq, depth]
    rfl
  have closes : reached.step limit .rightParen = some ⟨stage.depth, .term⟩ := by
    rw [Stage.step_outside awaitsAfter.outside (by decide), depth]
    rfl
  apply (after.leave.expect_tracks .rightParen (by decide) awaitsAfter.unfinished closes
    ?_).andThen tidyAfter
  · rintro closing stop _ freeStop tidyStop ⟨rfl, depthStop⟩
    exact ⟨freeStop, [], _, rfl, rfl, rfl, depthStop.trans left⟩
  · intro missing
    have ended : after.token.kind = .endOfInput := ends.resolve_right missing
    refine ⟨(awaitsAfter.step_eq limit).trans ?_,
      (Stage.wanted_outside awaitsAfter.outside).trans ?_⟩
    · rw [ended, depth]
      rfl
    · rw [show after.leave.token.kind = .endOfInput from ended]
      rfl

/-- A term, given what the rules lead to on less fuel. -/
theorem term_tracks (rules : RulesTrack limit fuel) (cursor : Cursor) (stage : Stage)
    (tidy : Tidy cursor.stream) (awaits : Awaits stage cursor)
    (continues : endsSequence cursor.token.kind = false) :
    (term limit (fuel + 1) cursor).Tracks limit stage
      (fun reached after => reached = ⟨stage.depth, .term⟩ ∧ after.depth = stage.depth)
      cursor.stream := by
  cases kind : cursor.token.kind with
  | literal | dot | escape =>
    have leads : stage.step limit cursor.token.kind = some ⟨stage.depth, .term⟩ := by
      rw [awaits.step_eq, kind]
      rfl
    simp only [term, kind]
    exact ⟨cursor.advance_held, [cursor.token], _,
      cursor.stream_eq_cons_of_kind _ kind (by decide), Stage.walk_step leads rfl, rfl,
      awaits.depth_eq⟩
  | leftParen =>
    simp only [term, kind, awaits.depth_eq]
    by_cases full : limit = some stage.depth
    · rw [if_pos full]
      refine ⟨[], stage, rfl, rfl, awaits.refuses ?_ ?_⟩
      · rw [kind]
        exact if_pos full
      · rw [kind]
        rfl
    · rw [if_neg full]
      exact group_tracks rules cursor stage tidy awaits kind full
  | leftBracket =>
    simp only [term, kind]
    exact charClass_tracks limit fuel cursor stage awaits tidy kind
  | rightBracket | plus | minus | star | question | caret =>
    simp only [term, kind]
    refine ⟨[], stage, rfl, rfl, awaits.refuses ?_ ?_⟩ <;> rw [kind] <;> rfl
  | endOfInput | rightParen | pipe => simp [kind, endsSequence] at continues

/-- With any fuel the rules lead the automaton along what they read. -/
theorem rulesTrack (limit : Option Nat) (fuel : Nat) : RulesTrack limit fuel := by
  induction fuel with
  | zero =>
    exact ⟨fun _ _ _ _ _ _ => trivial, fun _ _ _ _ _ _ => trivial, fun _ _ _ _ _ => trivial,
      fun _ _ _ _ _ => trivial⟩
  | succ fuel rules =>
    exact ⟨regex_tracks rules, sequence_tracks rules, expr_tracks rules, term_tracks rules⟩

/-- A pattern that is rejected leads the automaton to a stage that refuses the rejected
token with the same error. -/
theorem pattern_refuses (limit : Option Nat) (fuel : Nat) (text : String) (error : SyntaxError)
    (stop : Cursor) (rejected : pattern limit fuel (.ofPattern text) = .rejected error stop) :
    ∃ consumed reached, (Cursor.ofPattern text).stream = consumed ++ stop.stream ∧
      Stage.initial.walk limit (consumed.map Token.kind) = some reached ∧
      reached.Refuses limit stop.token error := by
  have begins : Awaits Stage.initial (.ofPattern text) := ⟨rfl, .inl rfl, fun _ => rfl⟩
  have tracked := (rulesTrack limit fuel).regex [] (.ofPattern text) Stage.initial
    (Scanner.next_held _) (Cursor.ofPattern_tidy text) begins
  rw [pattern] at rejected
  cases reply : regex limit fuel [] (.ofPattern text) with
  | accepted tree after =>
    rw [reply] at tracked rejected
    obtain ⟨free, consumed, reached, split, walked, awaits, depth, ends⟩ := tracked
    have missing : after.token.kind ≠ .endOfInput := by
      intro ended
      simp [Reply.andThen, Cursor.expect, ended] at rejected
    have closing : after.token.kind = .rightParen := ends.resolve_left missing
    obtain ⟨rfl, rfl⟩ : SyntaxError.ofToken (.token .endOfInput) after.token = error ∧
        after = stop := by
      simpa [Reply.andThen, Cursor.expect, missing] using rejected
    refine ⟨consumed, reached, split, walked, awaits.refuses ?_ ?_⟩
    · rw [closing, depth]
      rfl
    · rw [closing]
      rfl
  | rejected first halt =>
    rw [reply] at tracked rejected
    obtain ⟨rfl, rfl⟩ : first = error ∧ halt = stop := by simpa [Reply.andThen] using rejected
    exact tracked
  | broken fault =>
    rw [reply] at rejected
    simp [Reply.andThen] at rejected

/-- The verdict is an error only if the reply rejects with it. -/
theorem Reply.verdict_eq_error_iff {α : Type} (reply : Reply α) (settled : reply.isSettled = true)
    (error : SyntaxError) :
    reply.verdict settled = .error error ↔ ∃ stop, reply = .rejected error stop := by
  cases reply with
  | accepted found after => simp [Reply.verdict]
  | rejected found stop => simp [Reply.verdict]
  | broken fault => simp [Reply.isSettled] at settled

end Parser

/-- Parsing fails with an error if the rules reject with it. -/
theorem parseWithin_eq_error_iff (limit : Option Nat) (pattern : String) (error : SyntaxError) :
    parseWithin limit pattern = .error error ↔
      ∃ stop, parseReply limit pattern = .rejected error stop :=
  Parser.Reply.verdict_eq_error_iff _ _ error

/-! ### What an error says -/

/-- Before the end of input a mode is outside or between brackets. -/
theorem Mode.outside_or_inside (mode : Mode) (unfinished : mode ≠ .finished) :
    mode.IsOutside ∨ mode.IsInside := by
  cases mode <;> simp_all [IsOutside, IsInside]

/-- A stage outside brackets that cannot take a kind cannot take it as if nothing were
before it either. -/
theorem Stage.outsideStep_of_stuck {limit : Option Nat} {stage : Stage} {kind : Kind}
    (outside : stage.mode.IsOutside) (stuck : stage.step limit kind = none) :
    outsideStep limit stage.depth kind = none := by
  rcases outside with mode | mode | mode
  · simpa only [step, mode] using stuck
  · by_cases repeats : kind.IsOperator
    · simp [step, mode, repeats] at stuck
    · simpa only [step, mode, if_neg repeats] using stuck
  · by_cases mark : kind = .question
    · simp [step, mode, mark] at stuck
    · simpa only [step, mode, if_neg mark] using stuck

/-- What an error asks for: a kind that can stand where the token was refused, a term of
which a literal is one, or fewer groups where the limit has been reached. -/
theorem Stage.Refuses.asks {limit : Option Nat} {stage : Stage} {token : Token}
    {error : SyntaxError} (refused : stage.Refuses limit token error) :
    (∃ kind next, stage.step limit kind = some next ∧
      (error.expected = .token kind ∨ error.expected = .term ∧ kind = .literal)) ∨
    (error.expected = .nesting stage.depth ∧ token.kind = .leftParen ∧
      limit = some stage.depth ∧ stage.mode.IsOutside) := by
  obtain ⟨unfinished, stuck, rfl⟩ := refused
  simp only [SyntaxError.ofToken]
  rcases stage.mode.outside_or_inside unfinished with outside | inside
  · have blocked := outsideStep_of_stuck outside stuck
    rw [wanted_outside outside]
    cases kind : token.kind with
    | rightParen =>
      have top : stage.depth = 0 := by simpa [kind, outsideStep] using blocked
      refine .inl ⟨.endOfInput, ⟨0, .finished⟩, ?_, .inl rfl⟩
      rw [step_outside outside (by decide), top]
      rfl
    | endOfInput =>
      have nested : stage.depth ≠ 0 := by simpa [kind, outsideStep] using blocked
      refine .inl ⟨.rightParen, ⟨stage.depth - 1, .term⟩, ?_, .inl rfl⟩
      rw [step_outside outside (by decide)]
      exact if_neg nested
    | leftParen =>
      have full : limit = some stage.depth := by simpa [kind, outsideStep] using blocked
      exact .inr ⟨rfl, rfl, full, outside⟩
    | literal | dot | escape | leftBracket | pipe => simp [kind, outsideStep] at blocked
    | rightBracket | plus | minus | star | question | caret =>
      exact .inl ⟨.literal, ⟨stage.depth, .term⟩, step_outside outside (by decide),
        .inr ⟨rfl, rfl⟩⟩
  · exact .inl ⟨.rightBracket, ⟨stage.depth, .term⟩, step_inside inside (by decide),
      .inl (wanted_inside inside)⟩

/-- The error is about the token at this index, where viability is lost. -/
structure SyntaxError.PointsAt (error : SyntaxError) (tokens : List Token) (index : Nat) :
    Prop where
  token : ∃ token, tokens[index]? = some token ∧ error.found = token.kind ∧
    error.span = token.span
  viable : Viable nestingLimit ((tokens.take index).map Token.kind)
  unviable : ¬ Viable nestingLimit ((tokens.take (index + 1)).map Token.kind)

/-- An error points at no more than one token: where viability is lost early it is not
there later. -/
theorem SyntaxError.PointsAt.unique {error : SyntaxError} {tokens : List Token}
    {index other : Nat} (first : error.PointsAt tokens index)
    (second : error.PointsAt tokens other) : other = index := by
  have ordered : ∀ early late : Nat, error.PointsAt tokens early → error.PointsAt tokens late →
      ¬ early < late := by
    intro early late onEarly onLate before
    refine onEarly.unviable (onLate.viable.of_isPrefix (List.IsPrefix.map _ ?_))
    exact List.take_prefix_take_left before
  have notLess := ordered index other first second
  have notGreater := ordered other index second first
  omega

/-- What the error asks for would have kept the kinds before it viable. If it asks for
fewer groups, the limit was reached, and a parenthesis would be viable without it. -/
def Expected.Repairs (before : List Kind) (found : Kind) : Expected → Prop
  | .token kind => Viable nestingLimit (before ++ [kind])
  | .term => Viable nestingLimit (before ++ [.literal])
  | .nesting limit => limit = nestingLimit ∧ found = .leftParen ∧
      before.count .leftParen = before.count .rightParen + nestingLimit ∧
      ∃ nesting, Viable nesting (before ++ [found])

/-- What an error asks for where a token was refused is a repair. -/
theorem Stage.Refuses.repairs {stage : Stage} {token : Token} {error : SyntaxError}
    {before : List Kind} (refused : stage.Refuses (some nestingLimit) token error)
    (walked : Stage.initial.walk (some nestingLimit) before = some stage) :
    error.expected.Repairs before token.kind := by
  rcases refused.asks with ⟨kind, next, leads, asked⟩ | ⟨asked, parenthesis, full, outside⟩
  · have repaired : Viable nestingLimit (before ++ [kind]) := by
      rw [viable_iff_walk]
      exact ⟨next, walk_trans walked (by rwa [walk_singleton])⟩
    rcases asked with asked | ⟨asked, rfl⟩
    · rw [asked]
      exact repaired
    · rw [asked]
      exact repaired
  · have deep : nestingLimit = stage.depth := Option.some.inj full
    rw [← Nat.zero_add nestingLimit] at walked
    obtain ⟨room, total, described⟩ := (describes_initial nestingLimit).walk walked
    have opened := described.opens outside
    -- the limit has been reached, so no group is left to spare; one more is allowed
    have entered := opened.relax.enter
    rw [List.nil_append] at opened entered
    rw [asked]
    exact ⟨deep.symm, parenthesis, deep ▸ opened.count_eq, _, parenthesis ▸ entered.viable⟩

/-- A pattern that does not parse has exactly one token up to which it is viable and with
which it no longer is. That is the token the error names, and what the error asks for in
its place would have kept the pattern viable. -/
theorem parse_error_earliest (pattern : String) (error : SyntaxError)
    (failed : parse pattern = .error error) :
    ∃ index, error.PointsAt (Scanner.ofPattern pattern).stream index ∧
      (∀ other, error.PointsAt (Scanner.ofPattern pattern).stream other → other = index) ∧
      error.expected.Repairs
        (((Scanner.ofPattern pattern).stream.take index).map Token.kind) error.found := by
  obtain ⟨stop, rejected⟩ := (parseWithin_eq_error_iff _ pattern error).mp failed
  obtain ⟨consumed, reached, split, walked, refused⟩ :=
    Parser.pattern_refuses _ _ pattern error stop rejected
  rw [Parser.Cursor.ofPattern_stream] at split
  have before : (Scanner.ofPattern pattern).stream.take consumed.length = consumed := by
    rw [split, List.take_left]
  have upTo : (Scanner.ofPattern pattern).stream.take (consumed.length + 1) =
      consumed ++ [stop.token] := by
    rw [split, Parser.Cursor.stream, List.take_length_add_append]
    rfl
  have found : error.found = stop.token.kind := by
    rw [refused.error_eq]
    rfl
  have span : error.span = stop.token.span := by
    rw [refused.error_eq]
    rfl
  have points : error.PointsAt (Scanner.ofPattern pattern).stream consumed.length := by
    refine ⟨⟨stop.token, ?_, found, span⟩, ?_, ?_⟩
    · rw [split, List.getElem?_append_right (Nat.le_refl _), Nat.sub_self]
      rfl
    · rw [before, viable_iff_walk]
      exact ⟨reached, walked⟩
    · rw [upTo, viable_iff_walk, List.map_append, Stage.walk_append, walked]
      simp [refused.stuck]
  refine ⟨consumed.length, points, fun other => points.unique, ?_⟩
  rw [before, found]
  exact refused.repairs walked

/-- A `-` that was read as part of a range is put back before the caret is refused, and
the error is still about the caret. -/
theorem parse_error_after_minus :
    ∃ index, SyntaxError.PointsAt ⟨.token .rightBracket, .caret, ⟨3, 4⟩⟩
        (Scanner.ofPattern "[a-^]").stream index ∧
      (∀ other, SyntaxError.PointsAt ⟨.token .rightBracket, .caret, ⟨3, 4⟩⟩
        (Scanner.ofPattern "[a-^]").stream other → other = index) ∧
      (Expected.token .rightBracket).Repairs
        (((Scanner.ofPattern "[a-^]").stream.take index).map Token.kind) .caret := by
  have failed : parse "[a-^]" = .error ⟨.token .rightBracket, .caret, ⟨3, 4⟩⟩ := rfl
  exact parse_error_earliest "[a-^]" _ failed

end RegexCompiler
