import RegexCompiler.Compiled

/-!
# One-line dumps of values

A dump writes a value by its constructors, for inspection. A record is a name
and its fields between braces, a variant with arguments is a name and the
arguments between parentheses, a variant without any is its name. An optional
value is `None` or `Some`, and characters and strings are quoted. Chains are
shown link by link, as they lean to the right.
-/

namespace RegexCompiler

namespace Dump

/-- A name and fields between braces. -/
def record (name : String) (fields : List (String × String)) : String :=
  name ++ " \x7b " ++ ", ".intercalate (fields.map fun field => field.1 ++ ": " ++ field.2)
    ++ " \x7d"

/-- A name and arguments between parentheses. -/
def variant (name : String) (arguments : List String) : String :=
  name ++ "(" ++ ", ".intercalate arguments ++ ")"

/-- Elements between brackets. -/
def list (elements : List String) : String :=
  "[" ++ ", ".intercalate elements ++ "]"

/-- An optional value. -/
def optional : Option String → String
  | none => "None"
  | some value => variant "Some" [value]

end Dump

open Dump

/-- The name of a kind. -/
def Kind.name : Kind → String
  | .literal => "Char"
  | .escape => "Special"
  | .endOfInput => "Eof"
  | .leftParen => "LParen"
  | .rightParen => "RParen"
  | .leftBracket => "LBracket"
  | .rightBracket => "RBracket"
  | .plus => "Plus"
  | .minus => "Minus"
  | .star => "Star"
  | .question => "Question"
  | .caret => "Caret"
  | .pipe => "Pipe"
  | .dot => "Dot"

/-- The name of a repetition. -/
def Repetition.name : Repetition → String
  | .zeroOrOne => "ZeroOrOne"
  | .zeroOrMore => "ZeroOrMore"
  | .oneOrMore => "OneOrMore"

/-- A span as a pair of positions. -/
def Span.dump (span : Span) : String :=
  variant "Span" [toString span.start, toString span.stop]

/-- A token with all its fields. -/
def Token.dump (token : Token) : String :=
  record "Token"
    [("kind", token.kind.name), ("char", Text.quoteChar token.char), ("span", token.span.dump)]

/-- A quantifier with all its fields. -/
def Quantifier.dump (quantifier : Quantifier) : String :=
  record "Quantifier"
    [("kind", quantifier.repetition.name), ("op", quantifier.operator.dump),
      ("lazy", optional (quantifier.lazy.map Token.dump))]

/-- A member by its tokens. -/
def Member.dump : Member → String
  | .single token => variant "Single" [token.dump]
  | .range low high => variant "Range" [low.dump, high.dump]

/-- A chain of members. -/
def Members.dump : Members → String
  | .empty => "Empty"
  | .last member => variant "Item" [member.dump, optional none]
  | .link member tail => variant "Item" [member.dump, optional (some tail.dump)]

mutual

/-- A regex and, if there is one, the alternative after it. -/
def Regex.dump : Regex → String
  | .single sequence =>
    record "Regex" [("sub", sequence.dump), ("alternative", optional none)]
  | .alternate sequence pipe rest =>
    record "Regex"
      [("sub", sequence.dump),
        ("alternative",
          optional (some (record "Alternative" [("pipe", pipe.dump), ("regex", rest.dump)])))]

/-- A chain of expressions. -/
def Sequence.dump : Sequence → String
  | .empty => "Empty"
  | .last expr => variant "Expr" [expr.dump, optional none]
  | .link expr tail => variant "Expr" [expr.dump, optional (some tail.dump)]

/-- An expression with its quantifier. -/
def Expr.dump : Expr → String
  | .mk term quantifier =>
    record "Expr"
      [("term", term.dump), ("quantifier", optional (quantifier.map Quantifier.dump))]

/-- A term with its tokens. -/
def Term.dump : Term → String
  | .atom token => variant "Atom" [token.dump]
  | .group opening regex closing =>
    record "Group" [("open", opening.dump), ("regex", regex.dump), ("close", closing.dump)]
  | .charClass opening negation members closing =>
    record "Class"
      [("open", opening.dump), ("negated", optional (negation.map Token.dump)),
        ("class", members.dump), ("close", closing.dump)]

end

/-- A range as a pair of characters. -/
def rangeDump (range : CharRange) : String :=
  variant "" [Text.quoteChar range.1, Text.quoteChar range.2]

/-- An instruction, with targets written by `target`. -/
def Inst.dump {τ : Type} (target : τ → String) : Inst τ → String
  | .accept => "Match"
  | .char c => variant "Char" [Text.quoteChar c]
  | .any => "Any"
  | .oneOf ranges => variant "Range" [list (ranges.map rangeDump)]
  | .noneOf ranges => variant "NRange" [list (ranges.map rangeDump)]
  | .save slot => variant "Save" [toString slot]
  | .jump destination => variant "Jump" [target destination]
  | .split first second => variant "Split" [target first, target second]

/-- A program with its instructions and the number of its slots. -/
def Program.dump (program : Program) : String :=
  record "Program"
    [("insts", list (program.insts.toList.map (Inst.dump toString))),
      ("slots", toString program.slots)]

/-- What a parse expected. -/
def Expected.dump : Expected → String
  | .token kind => variant "Token" [kind.name]
  | .term => "Term"
  | .nesting limit => variant "Nesting" [toString limit]

/-- A syntax error as the one kind of error a compilation has. -/
def SyntaxError.dump (error : SyntaxError) : String :=
  variant "Syntax"
    [record "SyntaxError"
      [("expected", error.expected.dump), ("found", error.found.name), ("span", error.span.dump)]]

/-- A compiled pattern, by its pattern alone. -/
def Compiled.dump (compiled : Compiled) : String :=
  variant "Regex" [Text.quoteString compiled.pattern]

end RegexCompiler
