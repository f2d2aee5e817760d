import RegexCompiler.Parser.Cursor
import RegexCompiler.Tree

/-!
# The rules of the grammar

There is one rule for each symbol of the grammar, and each decides by the kind
of the current token alone. Loops collect what they have read in reverse and
build the chain when they end.

Between brackets a literal followed by `-` and another literal is a range. The
`-` has been stepped over by the time the token after it is seen, so it is put
back when no literal follows, to be read again as a member of its own.

Every rule takes a bound on the depth of its calls, one for each rule entered
and each turn of a loop. A limit on nested groups is optional: with `none` the
rules accept any depth.
-/

namespace RegexCompiler.Parser

/-- The repetition an operator stands for. -/
def repetition? : Kind → Option Repetition
  | .question => some .zeroOrOne
  | .star => some .zeroOrMore
  | .plus => some .oneOrMore
  | _ => none

/-- Kinds at which a sequence is over. -/
def endsSequence : Kind → Bool
  | .endOfInput => true
  | .rightParen => true
  | .pipe => true
  | _ => false

/-- Read the operator after a term, if there is one, and the mark that makes it
lazy. -/
def quantify (term : Term) (cursor : Cursor) : Expr × Cursor :=
  match repetition? cursor.token.kind with
  | none => (.mk term none, cursor)
  | some repetition =>
    let lazy := cursor.advance.accept .question
    (.mk term (some ⟨repetition, cursor.token, lazy.1⟩), lazy.2)

/-- Read one member that begins with the literal under the cursor. -/
def literalMember (cursor : Cursor) : Reply Member :=
  let low := cursor.token
  let next := cursor.advance
  if next.token.kind = .minus then
    let minus := next.token
    let beyond := next.advance
    if beyond.token.kind = .literal then
      .accepted (.range low beyond.token) beyond.advance
    else
      match beyond.unget minus with
      | .ok back => .accepted (.single low) back
      | .error cause => .broken (.misuse cause)
  else .accepted (.single low) next

/-- Read the members between brackets up to the first token that cannot be one. -/
def members : Nat → List Member → Cursor → Reply Members
  | 0, _, _ => .broken .outOfFuel
  | fuel + 1, found, cursor =>
    if cursor.token.kind = .literal then
      (literalMember cursor).andThen fun member after => members fuel (member :: found) after
    else if cursor.token.kind = .minus then
      members fuel (.single cursor.token :: found) cursor.advance
    else .accepted (.ofList found.reverse) cursor

/-- Read a character class whose bracket is under the cursor. -/
def charClass (fuel : Nat) (cursor : Cursor) : Reply Term :=
  let negation := cursor.advance.accept .caret
  (members fuel [] negation.2).andThen fun members after =>
    (after.expect .rightBracket).andThen fun closing after =>
      .accepted (.charClass cursor.token negation.1 members closing) after

mutual

/-- Read alternatives as long as a `|` follows. -/
def regex (limit : Option Nat) : Nat → List (Sequence × Token) → Cursor → Reply Regex
  | 0, _, _ => .broken .outOfFuel
  | fuel + 1, earlier, cursor =>
    (sequence limit fuel [] cursor).andThen fun last after =>
      if after.token.kind = .pipe then
        regex limit fuel ((last, after.token) :: earlier) after.advance
      else .accepted (.ofBranches earlier.reverse last) after

/-- Read expressions up to a token that ends the sequence. -/
def sequence (limit : Option Nat) : Nat → List Expr → Cursor → Reply Sequence
  | 0, _, _ => .broken .outOfFuel
  | fuel + 1, found, cursor =>
    if endsSequence cursor.token.kind then .accepted (.ofList found.reverse) cursor
    else
      (expr limit fuel cursor).andThen fun expr after =>
        sequence limit fuel (expr :: found) after

/-- Read a term and its quantifier. -/
def expr (limit : Option Nat) : Nat → Cursor → Reply Expr
  | 0, _ => .broken .outOfFuel
  | fuel + 1, cursor =>
    (term limit fuel cursor).andThen fun term after =>
      let quantified := quantify term after
      .accepted quantified.1 quantified.2

/-- Read an atom, a group or a character class. The limit on nested groups is
checked before a group is entered, so the parenthesis that would exceed it is
the token at fault. -/
def term (limit : Option Nat) : Nat → Cursor → Reply Term
  | 0, _ => .broken .outOfFuel
  | fuel + 1, cursor =>
    match cursor.token.kind with
    | .literal | .dot | .escape => .accepted (.atom cursor.token) cursor.advance
    | .leftParen =>
      if limit = some cursor.depth then
        .rejected (.ofToken (.nesting cursor.depth) cursor.token) cursor
      else
        (regex limit fuel [] cursor.advance.enter).andThen fun regex after =>
          (after.leave.expect .rightParen).andThen fun closing after =>
            .accepted (.group cursor.token regex closing) after
    | .leftBracket => charClass fuel cursor
    | _ => .rejected (.ofToken .term cursor.token) cursor

end

/-- Read a whole pattern: a regex and then the end of input. -/
def pattern (limit : Option Nat) (fuel : Nat) (cursor : Cursor) : Reply Regex :=
  (regex limit fuel [] cursor).andThen fun regex after =>
    (after.expect .endOfInput).andThen fun _ after => .accepted regex after

end RegexCompiler.Parser
