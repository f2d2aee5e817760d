import RegexCompiler.Token

/-!
# Concrete syntax trees

A tree follows the grammar of patterns symbol by symbol and keeps every token
but the `-` between the bounds of a range:

* a regex is a sequence, optionally followed by `|` and another regex;
* a sequence is any number of expressions;
* an expression is a term, optionally followed by `?`, `*` or `+` and then,
  optionally, by the `?` that makes the repetition lazy;
* a term is an atom, a regex between parentheses, or members between brackets,
  of which a leading `^` takes the complement.

Sequences and members are chains that lean to the right. The parser ends a
chain with its last element and writes the empty chain only where nothing was
read, but the types also admit chains that end in an explicit empty tail. The
operations that flatten a chain ignore such a tail; those that build one never
produce it.
-/

namespace RegexCompiler

/-- How often an expression may repeat. -/
inductive Repetition where
  | zeroOrOne
  | zeroOrMore
  | oneOrMore
  deriving DecidableEq

/-- A repetition with its operator and the mark that makes it lazy. -/
structure Quantifier where
  repetition : Repetition
  operator : Token
  lazy : Option Token
  deriving DecidableEq

/-- A greedy quantifier prefers to repeat, a lazy one prefers to stop. -/
def Quantifier.isGreedy (quantifier : Quantifier) : Bool :=
  quantifier.lazy.isNone

/-- One element between brackets. The bounds of a range may be in either order. -/
inductive Member where
  | single (token : Token)
  | range (low high : Token)
  deriving DecidableEq

/-- The least and the greatest character of a member, as written. -/
def Member.bounds : Member → Char × Char
  | .single token => (token.char, token.char)
  | .range low high => (low.char, high.char)

/-- The chain of members between brackets. -/
inductive Members where
  | empty
  | last (member : Member)
  | link (member : Member) (tail : Members)
  deriving DecidableEq

mutual

/-- Alternatives separated by `|`. -/
inductive Regex where
  | single (sequence : Sequence)
  | alternate (sequence : Sequence) (pipe : Token) (rest : Regex)

/-- The chain of expressions of one alternative. -/
inductive Sequence where
  | empty
  | last (expr : Expr)
  | link (expr : Expr) (tail : Sequence)

/-- A term and how often it repeats. -/
inductive Expr where
  | mk (term : Term) (quantifier : Option Quantifier)

/-- What a quantifier applies to. -/
inductive Term where
  | atom (token : Token)
  | group (opening : Token) (regex : Regex) (closing : Token)
  | charClass (opening : Token) (negation : Option Token) (members : Members) (closing : Token)

end

deriving instance DecidableEq for Regex, Sequence, Expr, Term

/-- The term of an expression. -/
def Expr.term : Expr → Term
  | .mk term _ => term

/-- The quantifier of an expression, if it has one. -/
def Expr.quantifier : Expr → Option Quantifier
  | .mk _ quantifier => quantifier

/-! ### Members -/

/-- Put an element before a chain that may be missing. -/
def Members.cons (member : Member) : Option Members → Members
  | none => .last member
  | some tail => .link member tail

/-- The chain of a list of elements, empty only if the list is. -/
def Members.ofList (members : List Member) : Members :=
  (members.foldr (fun member tail => some (Members.cons member tail)) none).getD .empty

/-- The elements of a chain after those already found, which are in reverse. -/
def Members.collect (found : List Member) : Members → List Member
  | .empty => found.reverse
  | .last member => (member :: found).reverse
  | .link member tail => tail.collect (member :: found)

/-- The elements of a chain in order. -/
def Members.toList (members : Members) : List Member := members.collect []

/-- Collecting puts the elements of the chain after those already found. -/
theorem Members.collect_eq (found : List Member) (members : Members) :
    members.collect found = found.reverse ++ members.toList := by
  induction members generalizing found with
  | empty => simp [toList, collect]
  | last member => simp [toList, collect]
  | link member tail inductionHypothesis =>
    simp [toList, collect, inductionHypothesis (member :: found), inductionHypothesis [member]]

/-- A link adds its element in front. -/
theorem Members.toList_link (member : Member) (tail : Members) :
    (Members.link member tail).toList = member :: tail.toList := by
  simp [toList, collect, collect_eq [member]]

/-- Building a chain and flattening it gives back the list. -/
theorem Members.toList_ofList (members : List Member) : (ofList members).toList = members := by
  have built : ∀ members : List Member,
      ((members.foldr (fun member tail => some (cons member tail)) none).map toList).getD [] =
        members := by
    intro members
    induction members with
    | nil => rfl
    | cons member rest inductionHypothesis =>
      rw [List.foldr_cons, Option.map_some, Option.getD_some]
      cases chain : rest.foldr (fun member tail => some (cons member tail)) none with
      | none =>
        rw [chain] at inductionHypothesis
        rw [← inductionHypothesis]
        rfl
      | some tail =>
        rw [chain] at inductionHypothesis
        rw [← inductionHypothesis]
        exact toList_link member tail
  have whole := built members
  unfold ofList
  cases chain : members.foldr (fun member tail => some (cons member tail)) none with
  | none => rw [chain] at whole; exact whole
  | some chained => rw [chain] at whole; exact whole

/-! ### Sequences -/

/-- Put an expression before a chain that may be missing. -/
def Sequence.cons (expr : Expr) : Option Sequence → Sequence
  | none => .last expr
  | some tail => .link expr tail

/-- The chain of a list of expressions, empty only if the list is. -/
def Sequence.ofList (exprs : List Expr) : Sequence :=
  (exprs.foldr (fun expr tail => some (Sequence.cons expr tail)) none).getD .empty

/-- The expressions of a chain after those already found, which are in reverse. -/
def Sequence.collect (found : List Expr) : Sequence → List Expr
  | .empty => found.reverse
  | .last expr => (expr :: found).reverse
  | .link expr tail => tail.collect (expr :: found)

/-- The expressions of a chain in order. -/
def Sequence.toList (sequence : Sequence) : List Expr := sequence.collect []

/-- Collecting puts the expressions of the chain after those already found. -/
theorem Sequence.collect_eq (found : List Expr) : (sequence : Sequence) →
    sequence.collect found = found.reverse ++ sequence.toList
  | .empty => by simp [toList, collect]
  | .last expr => by simp [toList, collect]
  | .link expr tail => by
    simp [toList, collect, collect_eq (expr :: found) tail, collect_eq [expr] tail]

/-- A link adds its expression in front. -/
theorem Sequence.toList_link (expr : Expr) (tail : Sequence) :
    (Sequence.link expr tail).toList = expr :: tail.toList := by
  simp [toList, collect, collect_eq [expr]]

/-- Building a chain and flattening it gives back the list. -/
theorem Sequence.toList_ofList (exprs : List Expr) : (ofList exprs).toList = exprs := by
  have built : ∀ exprs : List Expr,
      ((exprs.foldr (fun expr tail => some (cons expr tail)) none).map toList).getD [] =
        exprs := by
    intro exprs
    induction exprs with
    | nil => rfl
    | cons expr rest inductionHypothesis =>
      rw [List.foldr_cons, Option.map_some, Option.getD_some]
      cases chain : rest.foldr (fun expr tail => some (cons expr tail)) none with
      | none =>
        rw [chain] at inductionHypothesis
        rw [← inductionHypothesis]
        rfl
      | some tail =>
        rw [chain] at inductionHypothesis
        rw [← inductionHypothesis]
        exact toList_link expr tail
  have whole := built exprs
  unfold ofList
  cases chain : exprs.foldr (fun expr tail => some (cons expr tail)) none with
  | none => rw [chain] at whole; exact whole
  | some chained => rw [chain] at whole; exact whole

/-! ### Alternatives -/

/-- A regex of some sequences, each followed by a `|`, and a last one. -/
def Regex.ofBranches (earlier : List (Sequence × Token)) (last : Sequence) : Regex :=
  earlier.foldr (fun branch rest => .alternate branch.1 branch.2 rest) (.single last)

/-- The branches of a regex after those already found, which are in reverse. -/
def Regex.collect (found : List (Sequence × Token)) : Regex → List (Sequence × Token) × Sequence
  | .single sequence => (found.reverse, sequence)
  | .alternate sequence pipe rest => rest.collect ((sequence, pipe) :: found)

/-- The sequences that a `|` follows, each with it, and the last sequence. -/
def Regex.branches (regex : Regex) : List (Sequence × Token) × Sequence := regex.collect []

/-- Collecting puts the branches of the regex after those already found. -/
theorem Regex.collect_eq (found : List (Sequence × Token)) : (regex : Regex) →
    regex.collect found = (found.reverse ++ regex.branches.1, regex.branches.2)
  | .single sequence => by simp [branches, collect]
  | .alternate sequence pipe rest => by
    simp [branches, collect, collect_eq ((sequence, pipe) :: found) rest,
      collect_eq [(sequence, pipe)] rest]

/-- A branch before a regex comes first among its branches. -/
theorem Regex.branches_alternate (sequence : Sequence) (pipe : Token) (rest : Regex) :
    (Regex.alternate sequence pipe rest).branches =
      ((sequence, pipe) :: rest.branches.1, rest.branches.2) := by
  simp [branches, collect, collect_eq [(sequence, pipe)]]

/-- Building a regex from branches and taking it apart gives them back. -/
theorem Regex.branches_ofBranches (earlier : List (Sequence × Token)) (last : Sequence) :
    (ofBranches earlier last).branches = (earlier, last) := by
  induction earlier with
  | nil => rfl
  | cons branch later inductionHypothesis =>
    show (Regex.alternate branch.1 branch.2 (ofBranches later last)).branches = _
    rw [branches_alternate, inductionHypothesis]

/-- The alternatives of a regex from left to right. -/
def Regex.alternatives (regex : Regex) : List Sequence :=
  let branches := regex.branches
  branches.1.map Prod.fst ++ [branches.2]

/-- The `|` between the alternatives from left to right. -/
def Regex.pipes (regex : Regex) : List Token :=
  regex.branches.1.map Prod.snd

end RegexCompiler
