import RegexCompiler.Tree

/-!
# Outlines of syntax trees

An outline shows a tree with one line an element, indented under its parent and
connected to it by box-drawing characters. Each line has three characters for
every edge on the way down from the root, then a space and the title. The edges
above the last one continue as a vertical bar if more siblings follow there;
the last edge branches off, or turns if no sibling follows.

Chains are shown flat: the alternatives of a regex with the `|` between them,
the expressions of a sequence and the members of a class are all children of one
node. An outline is stored as its first element, the outline below it and the
outline of the elements after it.
-/

namespace RegexCompiler

/-- Elements in a row, each with the elements below it. -/
inductive Outline where
  | nil
  | entry (title : String) (children siblings : Outline)
  deriving DecidableEq

namespace Outline

/-- Whether there are no elements. -/
def isNil : Outline → Bool
  | .nil => true
  | .entry _ _ _ => false

/-- An element without children. -/
def leaf (title : String) (siblings : Outline) : Outline := .entry title .nil siblings

/-- Write the elements in a row after the text so far. `indent` stands for the
edges above them. -/
def renderAfter (text indent : String) : Outline → String
  | .nil => text
  | .entry title children siblings =>
    let edge := if siblings.isNil then " └─" else " ├─"
    let continued := if siblings.isNil then "   " else " │ "
    siblings.renderAfter
      (children.renderAfter (text ++ indent ++ edge ++ " " ++ title ++ "\n") (indent ++ continued))
      indent

end Outline

section

variable (printable : Char → Bool)

/-- A member before its siblings. A range is a node of its own. -/
def Member.outline (siblings : Outline) : Member → Outline
  | .single token => .leaf (token.textWith printable) siblings
  | .range low high =>
    .entry "RANGE" (.leaf (low.textWith printable) (.leaf (high.textWith printable) .nil)) siblings

/-- The members of a chain. -/
def Members.outline : Members → Outline
  | .empty => .nil
  | .last member => member.outline printable .nil
  | .link member tail => member.outline printable tail.outline

/-- An optional token before its siblings. -/
def optionalLeaf (siblings : Outline) : Option Token → Outline
  | none => siblings
  | some token => .leaf (token.textWith printable) siblings

/-- The operator of a quantifier and the mark that makes it lazy. -/
def Quantifier.outline (quantifier : Quantifier) : Outline :=
  .leaf (quantifier.operator.textWith printable) (optionalLeaf printable .nil quantifier.lazy)

mutual

/-- The alternatives of a regex and the `|` between them. -/
def Regex.outline : Regex → Outline
  | .single sequence => .entry "SUB" sequence.outline .nil
  | .alternate sequence pipe rest =>
    .entry "SUB" sequence.outline (.leaf (pipe.textWith printable) rest.outline)

/-- The expressions of a sequence. -/
def Sequence.outline : Sequence → Outline
  | .empty => .nil
  | .last expr => .entry "EXPR" expr.outline .nil
  | .link expr tail => .entry "EXPR" expr.outline tail.outline

/-- The term of an expression and its quantifier. -/
def Expr.outline : Expr → Outline
  | .mk term none => .entry "TERM" term.outline .nil
  | .mk term (some quantifier) => .entry "TERM" term.outline (quantifier.outline printable)

/-- The parts of a term. -/
def Term.outline : Term → Outline
  | .atom token => .leaf (token.textWith printable) .nil
  | .group opening regex closing =>
    .leaf (opening.textWith printable)
      (.entry "REGEX" regex.outline (.leaf (closing.textWith printable) .nil))
  | .charClass opening negation members closing =>
    .leaf (opening.textWith printable)
      (optionalLeaf printable
        (.entry "CLASS" (members.outline printable) (.leaf (closing.textWith printable) .nil))
        negation)

end

/-- The outline of a tree as text. The root stands alone at the top. -/
def Regex.outlineTextWith (regex : Regex) : String :=
  (regex.outline printable).renderAfter " REGEX\n" ""

end

/-- The outline of a tree as text by the character tables. -/
def Regex.outlineText (regex : Regex) : String := regex.outlineTextWith Text.isPrintable

end RegexCompiler
