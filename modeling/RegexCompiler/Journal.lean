import RegexCompiler.Compiled

/-!
# The journal of a compilation

A compilation that succeeds leaves a journal: first the outline of the tree,
then a record for every join in the order in which the joins are made, and last
the size of the program. A refused pattern leaves none.

The joins are found by going over the tree in the order of compilation with the
code that each join extends. The parts of a construct are compiled before they
are joined. In a sequence each expression is joined as soon as it is compiled;
in a regex all alternatives are compiled before the first of them is joined.
-/

namespace RegexCompiler

/-- How important a record is. -/
inductive Level where
  | debug
  | trace
  deriving DecidableEq

/-- How a level is written. -/
def Level.text : Level → String
  | .debug => "DEBUG"
  | .trace => "TRACE"

/-- An entry of the journal: its level, the part of the compiler it comes from
and what it says. -/
structure Record where
  level : Level
  origin : String
  message : String

/-- A join, seen from the code that is extended: the number of its branches that
lead to what is joined, and the index where that begins. -/
structure Join where
  dangling : Nat
  position : Nat
  deriving DecidableEq

/-- The join that extends the given code. -/
def Join.extending (code : Fragment) : Join := ⟨code.dangling, code.hole⟩

/-- The joins of pieces one after the other to a first one. -/
def joinsOf (first : Fragment) : List Fragment → List Join
  | [] => []
  | piece :: others => .extending first :: joinsOf (first.join piece) others

/-- The joins of the alternatives of a regex. -/
def EmittedBranches.joins (branches : EmittedBranches) : List Join :=
  let pieces := alternationPieces branches.earlier branches.last
  joinsOf pieces.1 pieces.2

mutual

/-- The joins within each alternative. -/
def Regex.branchJoins (slots : Nat) : Regex → List Join
  | .single sequence => sequence.joinsAfter .empty slots
  | .alternate sequence _ rest =>
    sequence.joinsAfter .empty slots ++ rest.branchJoins (sequence.emit slots).slots

/-- The joins of a sequence that extends the code before it. -/
def Sequence.joinsAfter (before : Fragment) (slots : Nat) : Sequence → List Join
  | .empty => []
  | .last expr => expr.joins slots ++ [.extending before]
  | .link expr tail =>
    let emitted := expr.emit slots
    expr.joins slots ++ .extending before ::
      tail.joinsAfter (before.join emitted.code) emitted.slots

/-- The joins of a term, then those of its repetition. -/
def Expr.joins (slots : Nat) : Expr → List Join
  | .mk term none => term.joins slots
  | .mk term (some quantifier) =>
    let pieces := quantifier.pieces (term.emit slots).code
    term.joins slots ++ joinsOf pieces.1 pieces.2

/-- The joins of a group: those of its body, then those around it. -/
def Term.joins (slots : Nat) : Term → List Join
  | .atom _ => []
  | .group _ regex _ =>
    let branches := regex.emitBranches [] (slots + 2)
    let pieces := groupPieces slots branches.joined.code
    regex.branchJoins (slots + 2) ++ branches.joins ++ joinsOf pieces.1 pieces.2
  | .charClass _ _ _ _ => []

end

/-- All joins of a compilation in the order in which they are made. -/
def Regex.joins (regex : Regex) : List Join :=
  regex.branchJoins 0 ++ (regex.emitBranches [] 0).joins

/-- The record of a join. -/
def Join.record (join : Join) : Record :=
  ⟨.trace, "revis::automata::compiler",
    s!"join: {join.dangling} dangling branches patched to instruction {join.position}"⟩

/-- The journal of a compiled pattern. -/
def Compiled.journal (compiled : Compiled) : List Record :=
  let program := compiled.program
  let parsed : Record :=
    ⟨.debug, "revis::regex",
      "concrete syntax tree for " ++ Text.quoteString compiled.pattern ++ ":\n" ++
        compiled.outlineText⟩
  let finished : Record :=
    ⟨.debug, "revis::automata::compiler",
      s!"compiled {program.size} instructions, {program.slots} capture slots"⟩
  parsed :: compiled.tree.joins.map Join.record ++ [finished]

end RegexCompiler
