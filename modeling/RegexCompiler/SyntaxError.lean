import RegexCompiler.Token

/-!
# Syntax errors

The first token that no rule can take ends the parse. The error says what was
wanted there, which kind of token stood there instead, and where.
-/

namespace RegexCompiler

/-- What would have allowed the parse to go on: a certain kind of token, any
token that begins a term, or fewer open groups. -/
inductive Expected where
  | token (kind : Kind)
  | term
  | nesting (limit : Nat)
  deriving DecidableEq

/-- How an expectation is worded. -/
def Expected.text : Expected → String
  | .token kind => kind.text
  | .term => "a term"
  | .nesting limit => s!"at most {limit} nested groups"

/-- Why a pattern was refused. -/
structure SyntaxError where
  expected : Expected
  found : Kind
  span : Span
  deriving DecidableEq

/-- The error at a token that does not meet an expectation. -/
def SyntaxError.ofToken (expected : Expected) (token : Token) : SyntaxError :=
  ⟨expected, token.kind, token.span⟩

/-- The message of an error. -/
def SyntaxError.message (error : SyntaxError) : String :=
  s!"expected {error.expected.text}, got {error.found.text}"

end RegexCompiler
