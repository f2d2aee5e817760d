import RegexCompiler.Parser
import RegexCompiler.Proofs.Checked.Scanning

/-!
# Parsing with an explicit state

The rules of the grammar as they are carried out: on a state that every step
changes, with lists that grow at their end, and with sequences and the bars between
them collected apart. A rule ends with a value, with a syntax error or with a fault.
Faults are the scanner's own, leaving a group that was not entered, a chain with too
few or too many bars, and running out of steps.

The rules agree with the plain ones step by step. Wherever the plain rules reach a
verdict, which is on every pattern, the two verdicts are the same.
-/

namespace RegexCompiler.Checked

/-- The token to be looked at next, the scanner behind it and the number of open
groups. -/
structure State where
  token : Token
  scanner : ByteScanner
  depth : Nat

/-- What becomes of a rule: a value and a new state, a syntax error, or a fault. -/
abbrev Outcome (α : Type) := Except Fault (Except SyntaxError (α × State))

/-- A rule of the grammar. -/
abbrev Rule (α : Type) := StateT State (ExceptT SyntaxError (Except Fault)) α

/-! ### Steps -/

/-- End with a fault. -/
def fail {α : Type} (fault : Fault) : Rule α := fun _ => (.error fault : Outcome α)

/-- Reject the current token. -/
def reject {α : Type} (expected : Expected) : Rule α := fun state =>
  (.ok (.error (.ofToken expected state.token)) : Outcome α)

/-- Take a value that may be a fault. -/
def attempt {α : Type} (value : Except Fault α) : Rule α := fun state =>
  (value.map fun value => .ok (value, state) : Outcome α)

/-- Step over the current token. -/
def bump : Rule Token := fun state =>
  (state.scanner.next.map fun read =>
    .ok (state.token, { state with token := read.1, scanner := read.2 }) : Outcome Token)

/-- Step over the current token if it has the given kind. -/
def accept (kind : Kind) : Rule (Option Token) := do
  if (← get).token.kind = kind then return some (← bump) else return none

/-- Step over the current token, which must have the given kind. -/
def expect (kind : Kind) : Rule Token := do
  match ← accept kind with
  | some token => return token
  | none => reject (.token kind)

/-- Make a token current again and hand the one it displaces to the scanner. -/
def unget (token : Token) : Rule Unit := fun state =>
  ((state.scanner.pushback state.token).map fun scanner =>
    .ok ((), { state with token := token, scanner := scanner }) : Outcome Unit)

/-- Enter a group. -/
def enter : Rule Unit := modify fun state => { state with depth := state.depth + 1 }

/-- Leave a group. -/
def leave : Rule Unit := fun state =>
  (if state.depth = 0 then .error .depthUnderflow
    else .ok (.ok ((), { state with depth := state.depth - 1 })) : Outcome Unit)

/-- The regex of sequences with bars between them. -/
def chain (sequences : List Sequence) (pipes : List Token) : Except Fault Regex :=
  if sequences.length = pipes.length + 1 then
    .ok (.ofBranches (sequences.dropLast.zip pipes) (sequences.getLast?.getD .empty))
  else .error .unevenChain

/-! ### Rules -/

/-- The member that begins with a literal that was stepped over. -/
def literalMember (low : Token) : Rule Member := do
  match ← accept .minus with
  | some minus =>
    match ← accept .literal with
    | some high => return .range low high
    | none =>
      unget minus
      return .single low
  | none => return .single low

/-- The members between brackets. -/
def members : Nat → List Member → Rule Members
  | 0, _ => fail .outOfSteps
  | fuel + 1, found => do
    match ← accept .literal with
    | some low =>
      let member ← literalMember low
      members fuel (found ++ [member])
    | none =>
      match ← accept .minus with
      | some minus => members fuel (found ++ [.single minus])
      | none => return .ofList found

mutual

/-- Sequences with bars between them. -/
def regex (limit : Nat) : Nat → List Sequence → List Token → Rule Regex
  | 0, _, _ => fail .outOfSteps
  | fuel + 1, sequences, pipes => do
    let last ← sequence limit fuel []
    match ← accept .pipe with
    | some pipe => regex limit fuel (sequences ++ [last]) (pipes ++ [pipe])
    | none => attempt (chain (sequences ++ [last]) pipes)

/-- Expressions up to a token that ends the sequence. -/
def sequence (limit : Nat) : Nat → List Expr → Rule Sequence
  | 0, _ => fail .outOfSteps
  | fuel + 1, found => do
    if Parser.endsSequence (← get).token.kind then return .ofList found
    else
      let expr ← expr limit fuel
      sequence limit fuel (found ++ [expr])

/-- A term and its quantifier. -/
def expr (limit : Nat) : Nat → Rule Expr
  | 0 => fail .outOfSteps
  | fuel + 1 => do
    let term ← term limit fuel
    match Parser.repetition? (← get).token.kind with
    | none => return .mk term none
    | some repetition =>
      let operator ← bump
      let lazy ← accept .question
      return .mk term (some ⟨repetition, operator, lazy⟩)

/-- An atom, a group or a character class. -/
def term (limit : Nat) : Nat → Rule Term
  | 0 => fail .outOfSteps
  | fuel + 1 => do
    let state ← get
    match state.token.kind with
    | .literal | .dot | .escape =>
      let token ← bump
      return .atom token
    | .leftParen =>
      if state.depth = limit then reject (.nesting limit)
      else
        let opening ← bump
        enter
        let body ← regex limit fuel [] []
        leave
        let closing ← expect .rightParen
        return .group opening body closing
    | .leftBracket =>
      let opening ← bump
      let negation ← accept .caret
      let inner ← members fuel []
      let closing ← expect .rightBracket
      return .charClass opening negation inner closing
    | _ => reject .term

end

/-- A regex and then the end of input. -/
def wholePattern (limit fuel : Nat) : Rule Regex := do
  let regex ← regex limit fuel [] []
  let _ ← expect .endOfInput
  return regex

/-- The verdict of an outcome without the state it ends in. -/
def verdict {α : Type} (outcome : Outcome α) : Except Fault (Except SyntaxError α) :=
  Except.map (Except.map Prod.fst) outcome

/-- Parse a pattern. -/
def parse (pattern : String) : Except Fault (Except SyntaxError Regex) := do
  let first ← (ByteScanner.ofPattern pattern).next
  verdict (wholePattern nestingLimit (parsingFuel pattern) ⟨first.1, first.2, 0⟩)

/-! ### Steps agree -/

/-- The state is where the cursor is. -/
structure State.Follows (state : State) (cursor : Parser.Cursor) : Prop where
  token_eq : state.token = cursor.token
  depth_eq : state.depth = cursor.depth
  scanner : state.scanner.Follows cursor.scanner

/-- The outcome is what the plain rule replies, which ends at the given depth if it
accepts. Of a plain rule that breaks down nothing is said. -/
def Agrees {α : Type} (depth : Nat) (reply : Parser.Reply α) (outcome : Outcome α) : Prop :=
  match reply with
  | .accepted value cursor => cursor.depth = depth ∧
      ∃ state, outcome = .ok (.ok (value, state)) ∧ state.Follows cursor
  | .rejected error _ => outcome = .ok (.error error)
  | .broken _ => True

/-- A rule that succeeds hands its value and state to what comes after it. -/
theorem bind_of_ok {α β : Type} {rule : Rule α} {state after : State} {value : α}
    (proceed : α → Rule β) (ran : rule state = (.ok (.ok (value, after)) : Outcome α)) :
    (rule >>= proceed) state = proceed value after := by
  change ExceptT.bind (rule state) _ = _
  rw [ran]
  rfl

/-- Rules that agree still agree when rules that agree come after them. -/
theorem Agrees.bind {α β : Type} {inside depth : Nat} {reply : Parser.Reply α} {rule : Rule α}
    {state : State} {next : α → Parser.Cursor → Parser.Reply β} {proceed : α → Rule β}
    (first : Agrees inside reply (rule state))
    (later : ∀ value cursor state, cursor.depth = inside → State.Follows state cursor →
      Agrees depth (next value cursor) (proceed value state)) :
    Agrees depth (reply.andThen next) ((rule >>= proceed) state) := by
  cases reply with
  | broken fault => trivial
  | rejected error stop =>
    change ExceptT.bind (rule state) _ = _
    rw [show rule state = (.ok (.error error) : Outcome α) from first]
    rfl
  | accepted value cursor =>
    obtain ⟨deep, after, ran, follows⟩ := first
    rw [bind_of_ok proceed ran]
    exact later value cursor after deep follows

/-- A value and a state that follows a cursor agree with acceptance there. -/
theorem Agrees.pure {α : Type} {depth : Nat} {state : State} {cursor : Parser.Cursor} (value : α)
    (deep : cursor.depth = depth) (follows : state.Follows cursor) :
    Agrees depth (.accepted value cursor) ((Pure.pure value : Rule α) state) :=
  ⟨deep, state, rfl, follows⟩

/-- Rejections of the same token agree. -/
theorem Agrees.reject {α : Type} {depth : Nat} {state : State} {cursor : Parser.Cursor}
    (expected : Expected) (follows : state.Follows cursor) :
    Agrees depth (.rejected (.ofToken expected cursor.token) cursor : Parser.Reply α)
      (Checked.reject expected state) := by
  rw [← follows.token_eq]
  rfl

/-- Looking at the state changes nothing. -/
theorem get_bind {β : Type} (state : State) (proceed : State → Rule β) :
    (get >>= proceed) state = proceed state state :=
  rfl

/-- Both step over the same token. -/
theorem State.Follows.bump {state : State} {cursor : Parser.Cursor}
    (follows : state.Follows cursor) : ∃ after : State,
    Checked.bump state = (.ok (.ok (cursor.token, after)) : Outcome Token) ∧
      after.Follows cursor.advance := by
  obtain ⟨scanner, read, behind⟩ := follows.scanner.next
  refine ⟨{ state with token := cursor.scanner.next.1, scanner := scanner }, ?_,
    rfl, follows.depth_eq, behind⟩
  simp only [Checked.bump, read, follows.token_eq, Except.map]

/-- Both step over a token of the given kind, or neither does. -/
theorem State.Follows.accept {state : State} {cursor : Parser.Cursor}
    (follows : state.Follows cursor) (kind : Kind) : ∃ after : State,
    Checked.accept kind state =
      (.ok (.ok ((cursor.accept kind).1, after)) : Outcome (Option Token)) ∧
      after.Follows (cursor.accept kind).2 := by
  rw [Checked.accept, Parser.Cursor.accept, get_bind, follows.token_eq]
  by_cases same : cursor.token.kind = kind
  · obtain ⟨after, ran, behind⟩ := follows.bump
    simp only [if_pos same]
    rw [bind_of_ok _ ran]
    exact ⟨after, rfl, behind⟩
  · simp only [if_neg same]
    exact ⟨state, rfl, follows⟩

/-- What comes after an optional token agrees if it does in both cases. -/
theorem State.Follows.accept_bind {β : Type} {state : State} {cursor : Parser.Cursor}
    (follows : state.Follows cursor) (kind : Kind) {depth : Nat} {reply : Parser.Reply β}
    {proceed : Option Token → Rule β}
    (present : cursor.token.kind = kind → ∀ after, State.Follows after cursor.advance →
      Agrees depth reply (proceed (some cursor.token) after))
    (absent : cursor.token.kind ≠ kind → ∀ after, State.Follows after cursor →
      Agrees depth reply (proceed none after)) :
    Agrees depth reply ((Checked.accept kind >>= proceed) state) := by
  obtain ⟨after, ran, behind⟩ := follows.accept kind
  rw [bind_of_ok _ ran]
  by_cases same : cursor.token.kind = kind
  · simp only [Parser.Cursor.accept, if_pos same] at behind ⊢
    exact present same after behind
  · simp only [Parser.Cursor.accept, if_neg same] at behind ⊢
    exact absent same after behind

/-- Both step over a required token, or both reject what is there instead. -/
theorem State.Follows.expect {state : State} {cursor : Parser.Cursor}
    (follows : state.Follows cursor) (kind : Kind) :
    Agrees cursor.depth (cursor.expect kind) (Checked.expect kind state) := by
  apply follows.accept_bind kind
  · intro same after behind
    rw [Parser.Cursor.expect, if_pos same]
    exact .pure cursor.token rfl behind
  · intro other after behind
    rw [Parser.Cursor.expect, if_neg other]
    exact .reject (.token kind) behind

/-- Where a token can be put back, both put it back. -/
theorem State.Follows.unget {state : State} {cursor back : Parser.Cursor}
    (follows : state.Follows cursor) (token : Token) (taken : cursor.unget token = .ok back) :
    back.depth = cursor.depth ∧ ∃ after : State,
      Checked.unget token state = (.ok (.ok ((), after)) : Outcome Unit) ∧ after.Follows back := by
  unfold Parser.Cursor.unget at taken
  cases pushed : cursor.scanner.pushback cursor.token with
  | error cause => simp [pushed, Except.map] at taken
  | ok scanner =>
    rw [pushed] at taken
    obtain rfl := Except.ok.inj taken
    obtain ⟨after, handed, behind⟩ := follows.scanner.pushback cursor.token pushed
    refine ⟨rfl, ⟨token, after, state.depth⟩, ?_, rfl, follows.depth_eq, behind⟩
    simp only [Checked.unget, follows.token_eq, handed, Except.map]

/-! ### Rules agree -/

/-- A member that begins with a literal is the same in both. -/
theorem literalMember_agrees {state : State} {cursor : Parser.Cursor}
    (follows : state.Follows cursor.advance) :
    Agrees cursor.depth (Parser.literalMember cursor) (literalMember cursor.token state) := by
  apply follows.accept_bind .minus
  · intro minus afterMinus behindMinus
    apply behindMinus.accept_bind .literal
    · intro literal afterHigh behindHigh
      simp only [Parser.literalMember, if_pos minus, if_pos literal]
      exact .pure _ rfl behindHigh
    · intro notLiteral kept behindKept
      simp only [Parser.literalMember, if_pos minus, if_neg notLiteral]
      split
      · rename_i back taken
        obtain ⟨depth, after, ran, behind⟩ := behindKept.unget _ taken
        rw [bind_of_ok _ ran]
        exact .pure _ depth behind
      · trivial
  · intro notMinus after behind
    simp only [Parser.literalMember, if_neg notMinus]
    exact .pure _ rfl behind

/-- The members between brackets are the same in both. -/
theorem members_agrees (fuel : Nat) (found : List Member) {state : State}
    {cursor : Parser.Cursor} (follows : state.Follows cursor) :
    Agrees cursor.depth (Parser.members fuel found cursor)
      (members fuel found.reverse state) := by
  induction fuel generalizing found state cursor with
  | zero => trivial
  | succ fuel inductionHypothesis =>
    apply follows.accept_bind .literal
    · intro literal after behind
      rw [Parser.members, if_pos literal]
      apply (literalMember_agrees behind).bind
      intro member stop stateStop deep behindStop
      have later := inductionHypothesis (member :: found) behindStop
      rwa [List.reverse_cons, deep] at later
    · intro notLiteral after behind
      rw [Parser.members, if_neg notLiteral]
      apply behind.accept_bind .minus
      · intro minus afterMinus behindMinus
        rw [if_pos minus]
        have later := inductionHypothesis (.single cursor.token :: found) behindMinus
        rwa [List.reverse_cons] at later
      · intro notMinus stop behindStop
        rw [if_neg notMinus]
        exact .pure _ rfl behindStop

/-- As many sequences as bars, and one more, can be chained. -/
theorem chain_eq (earlier : List (Sequence × Token)) (last : Sequence) :
    chain ((earlier.map Prod.fst).reverse ++ [last]) (earlier.map Prod.snd).reverse =
      .ok (.ofBranches earlier.reverse last) := by
  have pairs : (earlier.map Prod.fst).reverse.zip (earlier.map Prod.snd).reverse =
      earlier.reverse := by
    rw [← List.map_reverse, ← List.map_reverse, List.zip_map']
    simp
  simp [chain, pairs]

/-- What the rules do, on given fuel, agrees with what the plain rules do. -/
structure RulesAgree (limit fuel : Nat) : Prop where
  regex : ∀ earlier {state cursor}, State.Follows state cursor →
    Agrees cursor.depth (Parser.regex (some limit) fuel earlier cursor)
      (Checked.regex limit fuel (earlier.map Prod.fst).reverse (earlier.map Prod.snd).reverse
        state)
  sequence : ∀ found {state cursor}, State.Follows state cursor →
    Agrees cursor.depth (Parser.sequence (some limit) fuel found cursor)
      (Checked.sequence limit fuel found.reverse state)
  expr : ∀ {state cursor}, State.Follows state cursor →
    Agrees cursor.depth (Parser.expr (some limit) fuel cursor) (Checked.expr limit fuel state)
  term : ∀ {state cursor}, State.Follows state cursor →
    Agrees cursor.depth (Parser.term (some limit) fuel cursor) (Checked.term limit fuel state)

/-- A regex, given that the rules agree on less fuel. -/
theorem regex_agrees {limit fuel : Nat} (rules : RulesAgree limit fuel)
    (earlier : List (Sequence × Token)) {state : State} {cursor : Parser.Cursor}
    (follows : state.Follows cursor) :
    Agrees cursor.depth (Parser.regex (some limit) (fuel + 1) earlier cursor)
      (regex limit (fuel + 1) (earlier.map Prod.fst).reverse (earlier.map Prod.snd).reverse
        state) := by
  apply (rules.sequence [] follows).bind
  intro last after stateAfter deep behind
  apply behind.accept_bind .pipe
  · intro pipe afterPipe behindPipe
    rw [if_pos pipe]
    have later := rules.regex ((last, after.token) :: earlier) behindPipe
    simp only [List.map_cons, List.reverse_cons] at later
    exact deep ▸ later
  · intro noPipe stop behindStop
    rw [if_neg noPipe, chain_eq]
    exact .pure _ deep behindStop

/-- A sequence, given that the rules agree on less fuel. -/
theorem sequence_agrees {limit fuel : Nat} (rules : RulesAgree limit fuel) (found : List Expr)
    {state : State} {cursor : Parser.Cursor} (follows : state.Follows cursor) :
    Agrees cursor.depth (Parser.sequence (some limit) (fuel + 1) found cursor)
      (sequence limit (fuel + 1) found.reverse state) := by
  rw [Parser.sequence, sequence, get_bind, follows.token_eq]
  split
  · exact .pure _ rfl follows
  · apply (rules.expr follows).bind
    intro expr after stateAfter deep behind
    have later := rules.sequence (expr :: found) behind
    rwa [List.reverse_cons, deep] at later

/-- An expression, given that the rules agree on less fuel. -/
theorem expr_agrees {limit fuel : Nat} (rules : RulesAgree limit fuel) {state : State}
    {cursor : Parser.Cursor} (follows : state.Follows cursor) :
    Agrees cursor.depth (Parser.expr (some limit) (fuel + 1) cursor)
      (expr limit (fuel + 1) state) := by
  rw [Parser.expr, expr]
  apply (rules.term follows).bind
  intro term after stateAfter deep behind
  rw [get_bind, behind.token_eq, Parser.quantify]
  cases Parser.repetition? after.token.kind with
  | none => exact .pure _ deep behind
  | some repetition =>
    obtain ⟨afterOperator, ranOperator, behindOperator⟩ := behind.bump
    obtain ⟨afterLazy, ranLazy, behindLazy⟩ := behindOperator.accept .question
    have depthLazy : (after.advance.accept .question).2.depth = cursor.depth := by
      rw [Parser.Cursor.accept]
      split <;> exact deep
    dsimp only
    rw [bind_of_ok _ ranOperator, bind_of_ok _ ranLazy]
    exact .pure _ depthLazy behindLazy

/-- A character class is the same in both. -/
theorem charClass_agrees (fuel : Nat) {state : State} {cursor : Parser.Cursor}
    (follows : state.Follows cursor.advance) :
    Agrees cursor.depth (Parser.charClass fuel cursor)
      ((do
        let negation ← accept .caret
        let inner ← members fuel []
        let closing ← expect .rightBracket
        return .charClass cursor.token negation inner closing : Rule Term) state) := by
  obtain ⟨afterCaret, ranCaret, behindCaret⟩ := follows.accept .caret
  have depthCaret : (cursor.advance.accept .caret).2.depth = cursor.depth := by
    rw [Parser.Cursor.accept]
    split <;> rfl
  rw [Parser.charClass, bind_of_ok _ ranCaret]
  apply (members_agrees fuel [] behindCaret).bind
  intro inner after stateAfter deep behind
  rw [depthCaret] at deep
  apply (behind.expect .rightBracket).bind
  intro closing stop stateStop deepStop behindStop
  exact .pure _ (deepStop.trans deep) behindStop

/-- Both enter a group. -/
theorem State.Follows.enter {state : State} {cursor : Parser.Cursor}
    (follows : state.Follows cursor) : ∃ after : State,
    Checked.enter state = (.ok (.ok ((), after)) : Outcome Unit) ∧ after.Follows cursor.enter :=
  ⟨{ state with depth := state.depth + 1 }, rfl, follows.token_eq,
    congrArg (· + 1) follows.depth_eq, follows.scanner⟩

/-- Both leave a group that was entered. -/
theorem State.Follows.leave {state : State} {cursor : Parser.Cursor}
    (follows : state.Follows cursor) {depth : Nat} (inside : cursor.depth = depth + 1) :
    cursor.leave.depth = depth ∧ ∃ after : State,
      Checked.leave state = (.ok (.ok ((), after)) : Outcome Unit) ∧
        after.Follows cursor.leave := by
  have entered : state.depth ≠ 0 := by
    rw [follows.depth_eq, inside]
    exact Nat.succ_ne_zero depth
  refine ⟨congrArg (· - 1) inside, { state with depth := state.depth - 1 }, ?_,
    follows.token_eq, congrArg (· - 1) follows.depth_eq, follows.scanner⟩
  simp only [Checked.leave, if_neg entered]

/-- A term, given that the rules agree on less fuel. -/
theorem term_agrees {limit fuel : Nat} (rules : RulesAgree limit fuel) {state : State}
    {cursor : Parser.Cursor} (follows : state.Follows cursor) :
    Agrees cursor.depth (Parser.term (some limit) (fuel + 1) cursor)
      (term limit (fuel + 1) state) := by
  obtain ⟨afterFirst, ranFirst, behindFirst⟩ := follows.bump
  have atom : Agrees cursor.depth (.accepted (.atom cursor.token) cursor.advance)
      ((bump >>= fun token => (pure (.atom token) : Rule Term)) state) := by
    rw [bind_of_ok _ ranFirst]
    exact .pure _ rfl behindFirst
  rw [Parser.term, term, get_bind, follows.token_eq, follows.depth_eq]
  cases cursor.token.kind with
  | literal => exact atom
  | dot => exact atom
  | escape => exact atom
  | leftParen =>
    dsimp only
    by_cases full : cursor.depth = limit
    · rw [if_pos full, if_pos (by rw [full]), full]
      exact .reject _ follows
    · obtain ⟨stateInside, ranInside, behindInside⟩ := behindFirst.enter
      rw [if_neg full, if_neg (fun same => full (Option.some.inj same).symm),
        bind_of_ok _ ranFirst, bind_of_ok _ ranInside]
      apply (rules.regex [] behindInside).bind
      intro body after stateAfter deep behind
      obtain ⟨depthLeft, stateLeft, ranLeft, behindLeft⟩ := behind.leave deep
      rw [bind_of_ok _ ranLeft]
      apply (behindLeft.expect .rightParen).bind
      intro closing stop stateStop deepStop behindStop
      exact .pure _ (deepStop.trans depthLeft) behindStop
  | leftBracket =>
    dsimp only
    rw [bind_of_ok _ ranFirst]
    exact charClass_agrees fuel behindFirst
  | _ => exact .reject _ follows

/-- The rules agree on any fuel. -/
theorem rulesAgree (limit fuel : Nat) : RulesAgree limit fuel := by
  induction fuel with
  | zero => exact ⟨fun _ _ _ _ => trivial, fun _ _ _ _ => trivial, fun _ => trivial,
      fun _ => trivial⟩
  | succ fuel rules =>
    exact ⟨fun earlier _ _ follows => regex_agrees rules earlier follows,
      fun found _ _ follows => sequence_agrees rules found follows,
      fun follows => expr_agrees rules follows, fun follows => term_agrees rules follows⟩

/-- An outcome that agrees with a verdict is that verdict. -/
theorem Agrees.verdict {α : Type} {depth : Nat} {reply : Parser.Reply α} {outcome : Outcome α}
    (agrees : Agrees depth reply outcome) (settled : reply.isSettled = true) :
    Checked.verdict outcome = .ok (reply.verdict settled) := by
  cases reply with
  | accepted value cursor =>
    obtain ⟨_, state, rfl, _⟩ := agrees
    rfl
  | rejected error stop =>
    obtain rfl : outcome = .ok (.error error) := agrees
    rfl
  | broken fault => simp [Parser.Reply.isSettled] at settled

/-- Parsing meets no fault and gives the verdict of the plain parser. -/
theorem parse_eq (pattern : String) : parse pattern = .ok (RegexCompiler.parse pattern) := by
  obtain ⟨scanner, read, behind⟩ := (ByteScanner.ofPattern_follows pattern).next
  have start : State.Follows ⟨_, scanner, 0⟩ (.ofPattern pattern) := ⟨rfl, rfl, behind⟩
  have agrees : Agrees 0 (parseReply (some nestingLimit) pattern)
      (wholePattern nestingLimit (parsingFuel pattern)
        ⟨(Parser.Cursor.ofPattern pattern).token, scanner, 0⟩) := by
    apply ((rulesAgree nestingLimit (parsingFuel pattern)).regex [] start).bind
    intro tree after stateAfter deep follows
    apply (follows.expect .endOfInput).bind
    intro ending stop stateStop deepStop followsStop
    exact .pure _ (deepStop.trans deep) followsStop
  rw [parse, read, ok_bind, RegexCompiler.parse, parseWithin, ← agrees.verdict]
  rfl

end RegexCompiler.Checked
