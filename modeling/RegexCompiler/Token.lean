import RegexCompiler.Text.Quoted

/-!
# Tokens of a pattern

A token is a kind, the character it carries and the stretch of the pattern it
was read from. Positions count the bytes of the pattern's UTF-8 form.
Punctuation carries itself, the end of input carries NUL, and an escaped
character carries what it stands for, so two tokens of one kind and character
may still differ in the text they cover.
-/

namespace RegexCompiler

/-- A stretch of the pattern, from `start` up to but not including `stop`. -/
structure Span where
  start : Nat
  stop : Nat
  deriving DecidableEq

/-- The empty stretch at one position. -/
def Span.point (offset : Nat) : Span := ⟨offset, offset⟩

/-- The kinds of token. A `literal` is a character that stands for itself,
verbatim or escaped; an `escape` is an escaped character without a meaning of
its own. -/
inductive Kind where
  | literal
  | escape
  | endOfInput
  | leftParen
  | rightParen
  | leftBracket
  | rightBracket
  | plus
  | minus
  | star
  | question
  | caret
  | pipe
  | dot
  deriving DecidableEq

/-- The kind of an unescaped punctuation character. Exactly these characters
lose their special role when a backslash precedes them. -/
def Kind.ofPunctuation? (c : Char) : Option Kind :=
  match c with
  | '(' => some .leftParen
  | ')' => some .rightParen
  | '[' => some .leftBracket
  | ']' => some .rightBracket
  | '+' => some .plus
  | '-' => some .minus
  | '*' => some .star
  | '?' => some .question
  | '^' => some .caret
  | '|' => some .pipe
  | '.' => some .dot
  | _ => none

/-- How a kind is named in messages and outlines. -/
def Kind.text : Kind → String
  | .literal => "literal"
  | .escape => "escape"
  | .endOfInput => "end of input"
  | .leftParen => "'('"
  | .rightParen => "')'"
  | .leftBracket => "'['"
  | .rightBracket => "']'"
  | .plus => "'+'"
  | .minus => "'-'"
  | .star => "'*'"
  | .question => "'?'"
  | .caret => "'^'"
  | .pipe => "'|'"
  | .dot => "'.'"

/-- One token and where it stands. -/
structure Token where
  kind : Kind
  char : Char
  span : Span
  deriving DecidableEq

/-- The token that ends every pattern. -/
def Token.endOfInput (offset : Nat) : Token :=
  ⟨.endOfInput, '\x00', .point offset⟩

/-- How a token is shown: literals and escapes with their character, every other
kind by its name alone. -/
def Token.textWith (printable : Char → Bool) (token : Token) : String :=
  match token.kind with
  | .literal | .escape => token.kind.text ++ " " ++ Text.quoteCharWith printable token.char
  | kind => kind.text

/-- How a token is shown by the character tables. -/
def Token.text (token : Token) : String := token.textWith Text.isPrintable

end RegexCompiler
