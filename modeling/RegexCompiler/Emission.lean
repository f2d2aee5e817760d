import RegexCompiler.Fragment
import RegexCompiler.Tree

/-!
# Code of a syntax tree

Every construct is laid out as a few pieces that are joined one after the other.
With `n` the number of instructions of a body, without its placeholder:

* a repetition `*` is a split to the body or past the loop, the body, and a jump
  back to the split;
* a repetition `+` is the body and a split back to the body or onwards;
* an option `?` is a split to the body or past it, and the body;
* a group is the body between two instructions that save its bounds;
* an alternative that is not the last is a split to its body or to the next
  alternative, the body, and a jump behind the last alternative.

A lazy quantifier exchanges the targets of its split. Slots are numbered in the
order of the opening parentheses: a group takes its two slots before its body is
compiled, and the counter is handed from each part of the tree to the next.
-/

namespace RegexCompiler

/-- The branch of a loop or an option, which prefers the body if it is greedy. -/
def Quantifier.split (quantifier : Quantifier) (body exit : Int) : Inst Int :=
  if quantifier.isGreedy then .split body exit else .split exit body

/-- Pieces of a repeated body. -/
def Quantifier.pieces (quantifier : Quantifier) (body : Fragment) : Fragment × List Fragment :=
  let n : Int := body.hole
  match quantifier.repetition with
  | .zeroOrMore =>
    (.single (quantifier.split 1 (n + 2)), [body, .single (.jump (-(n + 1)))])
  | .oneOrMore => (body, [.single (quantifier.split (-n) 1)])
  | .zeroOrOne => (.single (quantifier.split 1 (n + 1)), [body])

/-- Pieces of a group whose bounds are saved in `slot` and the slot after it. -/
def groupPieces (slot : Nat) (body : Fragment) : Fragment × List Fragment :=
  (.single (.save slot), [body, .single (.save (slot + 1))])

/-- Instructions that an alternative with a successor takes up: its own and the
split and jump around it. -/
def Fragment.branchSize (branch : Fragment) : Nat := branch.hole + 2

/-- Pieces of the alternatives that have a successor, put before those already
laid out, which are in reverse. `remaining` counts the instructions from the
split of the first of them to the end of the code, so after taking off what the
alternative itself takes up it is the distance of its jump. -/
def branchPieces (laid : List Fragment) (remaining : Nat) : List Fragment → List Fragment
  | [] => laid
  | branch :: later =>
    let beyond := remaining - branch.branchSize
    branchPieces
      (.single (.jump beyond) :: branch :: .single (.split 1 branch.branchSize) :: laid)
      beyond later

/-- Pieces of a list of alternatives and a last one. -/
def alternationPieces (earlier : List Fragment) (last : Fragment) : Fragment × List Fragment :=
  let total := earlier.foldl (fun sum branch => sum + branch.branchSize) last.size
  (.empty, (last :: branchPieces [] total earlier).reverse)

/-- The code of an atom. A dot matches any character; every other token matches
the character it carries. -/
def atomInst (token : Token) : Inst Int :=
  match token.kind with
  | .dot => .any
  | _ => .char token.char

/-- The code of a character class. -/
def classInst (negation : Option Token) (members : Members) : Inst Int :=
  let ranges := members.toList.map Member.bounds
  match negation with
  | some _ => .noneOf ranges
  | none => .oneOf ranges

/-- Code and the number of slots taken once it is compiled. -/
structure Emitted where
  code : Fragment
  slots : Nat

/-- The code of each alternative and the number of slots taken after the last. -/
structure EmittedBranches where
  earlier : List Fragment
  last : Fragment
  slots : Nat

/-- The alternatives joined into one fragment. -/
def EmittedBranches.joined (branches : EmittedBranches) : Emitted :=
  let pieces := alternationPieces branches.earlier branches.last
  ⟨pieces.1.joinAll pieces.2, branches.slots⟩

mutual

/-- Compile the alternatives from left to right. Those already compiled are in
reverse. -/
def Regex.emitBranches (found : List Fragment) (slots : Nat) : Regex → EmittedBranches
  | .single sequence =>
    let last := sequence.emitAfter .empty slots
    ⟨found.reverse, last.code, last.slots⟩
  | .alternate sequence _ rest =>
    let branch := sequence.emitAfter .empty slots
    rest.emitBranches (branch.code :: found) branch.slots

/-- Compile the expressions of a sequence from left to right and join each to the
code before it. -/
def Sequence.emitAfter (before : Fragment) (slots : Nat) : Sequence → Emitted
  | .empty => ⟨before, slots⟩
  | .last expr =>
    let emitted := expr.emit slots
    ⟨before.join emitted.code, emitted.slots⟩
  | .link expr tail =>
    let emitted := expr.emit slots
    tail.emitAfter (before.join emitted.code) emitted.slots

/-- Compile a term and repeat it as its quantifier says. -/
def Expr.emit (slots : Nat) : Expr → Emitted
  | .mk term none => term.emit slots
  | .mk term (some quantifier) =>
    let body := term.emit slots
    let pieces := quantifier.pieces body.code
    ⟨pieces.1.joinAll pieces.2, body.slots⟩

/-- Compile an atom, a group or a character class. -/
def Term.emit (slots : Nat) : Term → Emitted
  | .atom token => ⟨.single (atomInst token), slots⟩
  | .group _ regex _ =>
    let body := (regex.emitBranches [] (slots + 2)).joined
    let pieces := groupPieces slots body.code
    ⟨pieces.1.joinAll pieces.2, body.slots⟩
  | .charClass _ negation members _ => ⟨.single (classInst negation members), slots⟩

end

/-- Compile a regex with `slots` slots already taken. -/
def Regex.emit (slots : Nat) (regex : Regex) : Emitted :=
  (regex.emitBranches [] slots).joined

/-- Compile a sequence with `slots` slots already taken. -/
def Sequence.emit (slots : Nat) (sequence : Sequence) : Emitted :=
  sequence.emitAfter .empty slots

/-- The program of a tree. Slots are numbered from zero. -/
def Regex.program (regex : Regex) : Program :=
  let emitted := regex.emit 0
  emitted.code.resolve emitted.slots

end RegexCompiler
