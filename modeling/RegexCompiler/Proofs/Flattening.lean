import RegexCompiler.Proofs.Checked.Parsing
import RegexCompiler.Proofs.Relocation
import RegexCompiler.Proofs.Unambiguity

/-!
# Chains and the lists they stand for

A regex is a chain of alternatives, a sequence a chain of expressions and the inside of a class
a chain of members. Building a chain from a list and taking it apart gives back the list. The
converse fails for chains in general, as an empty tail adds nothing to the list, but a tree
that was parsed has no such tail anywhere.

The flat form of a tree has a list for each of its chains, at every level. Where no chain ends
in an empty tail, each list comes from one chain only, so trees of patterns are equal if their
flat forms are. Trees are compared from the root: chains of the same length link by link, and
then what is below them.
-/

namespace RegexCompiler

/-! ### Chains without empty tails -/

/-- A chain of members and every tail of it. -/
def Members.tails : Members → List Members
  | .empty => [.empty]
  | .last member => [.last member]
  | .link member tail => .link member tail :: tail.tails

/-- No sequence and no class in the tree is a chain with an empty tail. -/
structure Regex.Trimmed (tree : Regex) : Prop where
  sequences : ∀ expr tail, .sequence (.link expr tail) ∈ tree.preorder → tail ≠ .empty
  classes : ∀ opening negation members closing,
    .term (.charClass opening negation members closing) ∈ tree.preorder →
      ∀ member tail, .link member tail ∈ members.tails → tail ≠ .empty

/-- Two or more members make a link. -/
theorem Members.ofList_cons_cons (member next : Member) (others : List Member) :
    Members.ofList (member :: next :: others) = .link member (.ofList (next :: others)) := rfl

/-- A chain built from members has no empty tail. -/
theorem Members.tail_ne_empty_of_ofList (members : List Member) (member : Member) (tail : Members)
    (present : .link member tail ∈ (Members.ofList members).tails) : tail ≠ .empty := by
  induction members with
  | nil => simp [Members.ofList, Members.tails] at present
  | cons first others inductionHypothesis =>
    cases others with
    | nil => simp [Members.ofList, Members.cons, Members.tails] at present
    | cons next rest =>
      rw [Members.ofList_cons_cons, Members.tails, List.mem_cons] at present
      rcases present with same | later
      · obtain ⟨rfl, rfl⟩ := Members.link.inj same
        cases rest <;> simp [Members.ofList, Members.cons]
      · exact inductionHypothesis later

/-- A node is canonical if the tree it is the root of is. -/
def Subtree.Canonical : Subtree → Prop
  | .regex tree => tree.Canonical
  | .sequence tree => tree.Canonical
  | .expr tree => tree.Canonical
  | .term tree => tree.Canonical

/-- What is below a canonical node is canonical. -/
theorem Subtree.inherited_canonical : Subtree.Inherited Subtree.Canonical where
  single := fun canonical => canonical
  alternate := fun canonical => canonical
  last := fun canonical => canonical
  link := fun ⟨first, _, later⟩ => ⟨first, later⟩
  term := fun canonical => canonical
  group := fun canonical => canonical

/-- Canonical trees have no empty tails. -/
theorem Regex.Canonical.trimmed {tree : Regex} (canonical : tree.Canonical) : tree.Trimmed := by
  have nodes := Subtree.inherited_canonical.regex_nodes tree canonical
  constructor
  · intro expr tail present
    have ⟨_, filled, _⟩ := nodes _ present
    exact filled
  · intro opening negation members closing present member tail inside
    have ⟨built, _⟩ := nodes _ present
    rw [built] at inside
    exact Members.tail_ne_empty_of_ofList _ member tail inside

/-! ### Alternatives -/

/-- A sequence in front of a `|` is the first alternative. -/
theorem Regex.alternatives_alternate (sequence : Sequence) (pipe : Token) (rest : Regex) :
    (Regex.alternate sequence pipe rest).alternatives = sequence :: rest.alternatives := by
  simp [Regex.alternatives, Regex.branches_alternate]

/-- There is no `|` in a regex of one alternative. -/
@[simp]
theorem Regex.pipes_single (sequence : Sequence) : (Regex.single sequence).pipes = [] := rfl

/-- The `|` behind the first alternative is the first of all. -/
@[simp]
theorem Regex.pipes_alternate (sequence : Sequence) (pipe : Token) (rest : Regex) :
    (Regex.alternate sequence pipe rest).pipes = pipe :: rest.pipes := by
  simp [Regex.pipes, Regex.branches_alternate]

/-- As many sequences as bars, and one more, make a regex that has them as its alternatives
with the bars between them. -/
theorem chain_alternatives (sequences : List Sequence) (pipes : List Token)
    (even : pipes.length + 1 = sequences.length) :
    ∃ tree, Checked.chain sequences pipes = .ok tree ∧ tree.alternatives = sequences ∧
      tree.pipes = pipes := by
  obtain ⟨earlier, last, rfl⟩ :=
    (List.eq_nil_or_concat sequences).resolve_left (by rintro rfl; simp at even)
  have paired : earlier.length = pipes.length := by simpa using even.symm
  refine ⟨.ofBranches (earlier.zip pipes) last, ?_, ?_, ?_⟩
  · simp [Checked.chain, paired]
  · rw [Regex.alternatives, Regex.branches_ofBranches, List.map_fst_zip paired.le,
      List.concat_eq_append]
  · rw [Regex.pipes, Regex.branches_ofBranches, List.map_snd_zip paired.ge]

/-! ### Flat forms -/

mutual

/-- A regex by the expressions of its alternatives and the `|` between them. -/
inductive FlatRegex where
  | mk (alternatives : List (List FlatExpr)) (pipes : List Token)

/-- An expression with its term flat. -/
inductive FlatExpr where
  | mk (term : FlatTerm) (quantifier : Option Quantifier)

/-- A term with the regex of a group flat, and with a list of the members of a class. -/
inductive FlatTerm where
  | atom (token : Token)
  | group (opening : Token) (regex : FlatRegex) (closing : Token)
  | charClass (opening : Token) (negation : Option Token) (members : List Member)
      (closing : Token)

end

mutual

/-- The alternatives of a regex, each flat. -/
def Regex.flatAlternatives : Regex → List (List FlatExpr)
  | .single sequence => [sequence.flatten]
  | .alternate sequence _ rest => sequence.flatten :: rest.flatAlternatives

/-- The expressions of a sequence, each flat. -/
def Sequence.flatten : Sequence → List FlatExpr
  | .empty => []
  | .last expr => [expr.flatten]
  | .link expr tail => expr.flatten :: tail.flatten

/-- The flat form of an expression. -/
def Expr.flatten : Expr → FlatExpr
  | .mk term quantifier => .mk term.flatten quantifier

/-- The flat form of a term. -/
def Term.flatten : Term → FlatTerm
  | .atom token => .atom token
  | .group opening regex closing => .group opening ⟨regex.flatAlternatives, regex.pipes⟩ closing
  | .charClass opening negation members closing =>
    .charClass opening negation members.toList closing

end

/-- The flat form of a regex. -/
def Regex.flatten (regex : Regex) : FlatRegex := ⟨regex.flatAlternatives, regex.pipes⟩

/-- The flat form of a sequence has its expressions in order. -/
theorem Sequence.flatten_eq : (sequence : Sequence) →
    sequence.flatten = sequence.toList.map Expr.flatten
  | .empty => rfl
  | .last expr => rfl
  | .link expr tail => by
    rw [Sequence.flatten, Sequence.toList_link, List.map_cons, tail.flatten_eq]

/-- The flat alternatives of a regex are its alternatives in order. -/
theorem Regex.flatAlternatives_eq : (regex : Regex) →
    regex.flatAlternatives = regex.alternatives.map Sequence.flatten
  | .single sequence => rfl
  | .alternate sequence pipe rest => by
    rw [Regex.flatAlternatives, Regex.alternatives_alternate, List.map_cons,
      rest.flatAlternatives_eq]

/-! ### Flat forms determine canonical trees -/

/-- Only the empty sequence has no expressions. -/
theorem Sequence.eq_empty_of_flatten {sequence : Sequence} (none : sequence.flatten = []) :
    sequence = .empty := by
  cases sequence with
  | empty => rfl
  | last expr => simp [Sequence.flatten] at none
  | link expr tail => simp [Sequence.flatten] at none

mutual

/-- Canonical regexes with the same flat form are equal. -/
theorem Regex.eq_of_flatten {left right : Regex} (canonical : left.Canonical)
    (canonical' : right.Canonical) (alternatives : left.flatAlternatives = right.flatAlternatives)
    (pipes : left.pipes = right.pipes) : left = right := by
  cases left with
  | single sequence =>
    cases right with
    | single sequence' =>
      obtain rfl := Sequence.eq_of_flatten canonical canonical' (List.singleton_inj.mp alternatives)
      rfl
    | alternate sequence' pipe' rest' => simp at pipes
  | alternate sequence pipe rest =>
    cases right with
    | single sequence' => simp at pipes
    | alternate sequence' pipe' rest' =>
      rw [Regex.pipes_alternate, Regex.pipes_alternate] at pipes
      obtain ⟨first, later⟩ := List.cons.inj alternatives
      obtain ⟨rfl, others⟩ := List.cons.inj pipes
      obtain rfl := Sequence.eq_of_flatten canonical.1 canonical'.1 first
      obtain rfl := Regex.eq_of_flatten canonical.2 canonical'.2 later others
      rfl
termination_by structural left

/-- Canonical sequences with the same flat form are equal. A link has at least two
expressions, so it cannot stand for the same list as the last expression of a chain. -/
theorem Sequence.eq_of_flatten {left right : Sequence} (canonical : left.Canonical)
    (canonical' : right.Canonical) (same : left.flatten = right.flatten) : left = right := by
  cases left with
  | empty => exact (Sequence.eq_empty_of_flatten same.symm).symm
  | last expr =>
    cases right with
    | empty => simp [Sequence.flatten] at same
    | last expr' =>
      obtain rfl := Expr.eq_of_flatten canonical canonical' (List.singleton_inj.mp same)
      rfl
    | link expr' tail' =>
      obtain ⟨_, none⟩ := List.cons.inj same
      exact absurd (Sequence.eq_empty_of_flatten none.symm) canonical'.2.1
  | link expr tail =>
    cases right with
    | empty => simp [Sequence.flatten] at same
    | last expr' =>
      obtain ⟨_, none⟩ := List.cons.inj same
      exact absurd (Sequence.eq_empty_of_flatten none) canonical.2.1
    | link expr' tail' =>
      obtain ⟨first, later⟩ := List.cons.inj same
      obtain rfl := Expr.eq_of_flatten canonical.1 canonical'.1 first
      obtain rfl := Sequence.eq_of_flatten canonical.2.2 canonical'.2.2 later
      rfl
termination_by structural left

/-- Canonical expressions with the same flat form are equal. -/
theorem Expr.eq_of_flatten {left right : Expr} (canonical : left.Canonical)
    (canonical' : right.Canonical) (same : left.flatten = right.flatten) : left = right := by
  cases left with
  | mk term quantifier =>
    cases right with
    | mk term' quantifier' =>
      obtain ⟨inner, rfl⟩ := FlatExpr.mk.inj same
      obtain rfl := Term.eq_of_flatten canonical canonical' inner
      rfl
termination_by structural left

/-- Canonical terms with the same flat form are equal. -/
theorem Term.eq_of_flatten {left right : Term} (canonical : left.Canonical)
    (canonical' : right.Canonical) (same : left.flatten = right.flatten) : left = right := by
  cases left with
  | atom token =>
    cases right with
    | atom token' =>
      obtain rfl := FlatTerm.atom.inj same
      rfl
    | group opening' regex' closing' => simp [Term.flatten] at same
    | charClass opening' negation' members' closing' => simp [Term.flatten] at same
  | group opening regex closing =>
    cases right with
    | atom token' => simp [Term.flatten] at same
    | group opening' regex' closing' =>
      obtain ⟨rfl, inner, rfl⟩ := FlatTerm.group.inj same
      obtain ⟨alternatives, pipes⟩ := FlatRegex.mk.inj inner
      obtain rfl := Regex.eq_of_flatten canonical canonical' alternatives pipes
      rfl
    | charClass opening' negation' members' closing' => simp [Term.flatten] at same
  | charClass opening negation members closing =>
    cases right with
    | atom token' => simp [Term.flatten] at same
    | group opening' regex' closing' => simp [Term.flatten] at same
    | charClass opening' negation' members' closing' =>
      obtain ⟨rfl, rfl, listed, rfl⟩ := FlatTerm.charClass.inj same
      have ⟨built, _⟩ := canonical
      have ⟨built', _⟩ := canonical'
      rw [built, built', listed]
termination_by structural left

end

/-- The tree of a pattern is canonical. -/
theorem canonical_of_parse {pattern : String} {tree : Regex} (parsed : parse pattern = .ok tree) :
    tree.Canonical :=
  ((parse_eq_ok_iff pattern tree).mp parsed).2.1

/-- Chains stand for lists without a remainder. In the tree of a pattern no sequence and no
class has an empty tail. A chain built from a list of expressions or members has just these in
order, and one built from sequences with a bar between any two has these sequences and bars.
The flat form of a tree lists its alternatives with their bars, the expressions of each and the
members of each class, level by level, and trees of patterns are equal if and only if their
flat forms are. -/
theorem chains_faithful :
    (∀ pattern tree, parse pattern = .ok tree → tree.Trimmed) ∧
    (∀ exprs, (Sequence.ofList exprs).toList = exprs) ∧
    (∀ members, (Members.ofList members).toList = members) ∧
    (∀ earlier last, (Regex.ofBranches earlier last).branches = (earlier, last)) ∧
    (∀ (sequences : List Sequence) (pipes : List Token), pipes.length + 1 = sequences.length →
      ∃ tree, Checked.chain sequences pipes = .ok tree ∧ tree.alternatives = sequences ∧
        tree.pipes = pipes) ∧
    (∀ tree : Regex, tree.flatten = ⟨tree.alternatives.map Sequence.flatten, tree.pipes⟩) ∧
    (∀ sequence : Sequence, sequence.flatten = sequence.toList.map Expr.flatten) ∧
    ∀ left right leftTree rightTree, parse left = .ok leftTree → parse right = .ok rightTree →
      (leftTree = rightTree ↔ leftTree.flatten = rightTree.flatten) := by
  refine ⟨fun _ _ parsed => (canonical_of_parse parsed).trimmed, Sequence.toList_ofList,
    Members.toList_ofList, Regex.branches_ofBranches, chain_alternatives, ?_,
    Sequence.flatten_eq, ?_⟩
  · intro tree
    rw [Regex.flatten, tree.flatAlternatives_eq]
  · intro left right leftTree rightTree leftParsed rightParsed
    refine ⟨fun same => same ▸ rfl, ?_⟩
    intro same
    obtain ⟨alternatives, pipes⟩ := FlatRegex.mk.inj same
    exact Regex.eq_of_flatten (canonical_of_parse leftParsed) (canonical_of_parse rightParsed)
      alternatives pipes

/-- Empty alternatives inside a group and behind the last bar, and a class that ends in a `-`.
Without the last bar the tree and its flat form are others. -/
theorem chains_faithful_empty : ∃ tree other, parse "(ab|)[x-]|" = .ok tree ∧
    parse "(ab|)[x-]" = .ok other ∧ tree.Trimmed ∧ tree.flatten ≠ other.flatten ∧
    ∃ chained, Checked.chain tree.alternatives tree.pipes = .ok chained ∧
      chained.alternatives = tree.alternatives ∧ chained.pipes = tree.pipes := by
  obtain ⟨trimmed, _, _, _, chains, _, _, determined⟩ := chains_faithful
  have parsed : parse "(ab|)[x-]|" = .ok _ := rfl
  have shorter : parse "(ab|)[x-]" = .ok _ := rfl
  exact ⟨_, _, parsed, shorter, trimmed _ _ parsed,
    (determined _ _ _ _ parsed shorter).not.mp (by decide), chains _ _ (by decide)⟩

end RegexCompiler
