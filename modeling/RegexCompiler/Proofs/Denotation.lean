import Mathlib.Computability.Language
import Mathlib.Order.ConditionallyCompleteLattice.Basic
import RegexCompiler.Proofs.Layout
import RegexCompiler.Proofs.Machine

/-!
# What a tree means

The meaning of a tree is a language over the events of a run: which characters it
consumes, in which slots it saves the bounds of groups and which choices it makes
at alternatives and repetitions. It is defined by recursion on the tree, without
reference to instructions or their positions. Groups are numbered by the order of
their opening parentheses; `opened` counts those before the part at hand.

A repetition is the least solution of an equation between languages. Each turn of a
loop begins with a choice, so the equation has in fact only one solution, also when
the body may consume nothing.
-/

namespace RegexCompiler

open Computability

/-- Traces that consume one character of which the predicate holds. -/
def consuming (allowed : Char → Prop) : Language Event :=
  {trace | ∃ c, allowed c ∧ trace = [.consumed c]}

/-- The least language that either takes a turn, marked by `again`, and starts over,
or leaves with `leave`. -/
def loop (again leave : Event) (body : Language Event) : Language Event :=
  sInf {language | language = {[again]} * body * language + {[leave]}}

/-- A turn of a loop is never empty, whatever its body. -/
theorem nil_not_mem_turn (again : Event) (body : Language Event) :
    [] ∉ ({[again]} * body : Language Event) := by
  rintro ⟨mark, rfl, inner, _, impossible⟩
  exact absurd impossible (List.cons_ne_nil _ _)

/-- The equation of a loop has one solution: any number of turns, and leaving at the
end. -/
theorem loop_solutions (again leave : Event) (body : Language Event) :
    {language | language = {[again]} * body * language + {[leave]}} =
      {({[again]} * body)∗ * {[leave]}} := by
  ext language
  exact Language.self_eq_mul_add_iff (nil_not_mem_turn again body)

/-- A loop is any number of turns, and leaving at the end. -/
theorem loop_eq_kstar (again leave : Event) (body : Language Event) :
    loop again leave body = ({[again]} * body)∗ * {[leave]} := by
  rw [loop, loop_solutions, sInf_singleton]

/-- A loop either takes a turn and starts over, or leaves. -/
theorem loop_eq (again leave : Event) (body : Language Event) :
    loop again leave body = {[again]} * body * loop again leave body + {[leave]} := by
  have solves : ({[again]} * body)∗ * {[leave]} ∈
      {language | language = {[again]} * body * language + {[leave]}} := by
    rw [loop_solutions]
    exact Set.mem_singleton _
  rw [loop_eq_kstar]
  exact solves

/-- Leaving at once is one way through a loop. -/
theorem leave_mem_loop (again leave : Event) (body : Language Event) :
    [leave] ∈ loop again leave body := by
  rw [loop_eq]
  exact Or.inr rfl

/-- A turn before a way through a loop is a way through it. -/
theorem turn_mem_loop (again leave : Event) (body : Language Event) (inner rest : Trace)
    (turned : inner ∈ body) (looped : rest ∈ loop again leave body) :
    again :: inner ++ rest ∈ loop again leave body := by
  rw [loop_eq]
  have marked : [again] ++ inner ∈ ({[again]} * body : Language Event) :=
    Language.append_mem_mul rfl turned
  exact Or.inl (Language.append_mem_mul marked looped)

/-- What holds on leaving and is kept by another turn holds of every way through a
loop. -/
theorem loop_induction (again leave : Event) (body : Language Event) (property : Trace → Prop)
    (onLeave : property [leave])
    (onTurn : ∀ inner ∈ body, ∀ rest, property rest → property (again :: inner ++ rest)) :
    ∀ trace ∈ loop again leave body, property trace := by
  rw [loop_eq_kstar]
  rintro trace ⟨turns, repeated, last, rfl, rfl⟩
  obtain ⟨parts, rfl, each⟩ := Language.mem_kstar.mp repeated
  clear repeated
  induction parts with
  | nil => exact onLeave
  | cons part parts inductionHypothesis =>
    obtain ⟨mark, rfl, inner, turned, rfl⟩ := each part List.mem_cons_self
    have others := inductionHypothesis fun other member =>
      each other (List.mem_cons_of_mem _ member)
    simpa using onTurn inner turned _ others

/-- The choice of a quantifier that enters its body: the first, unless it is marked as
lazy. -/
def Quantifier.again (quantifier : Quantifier) : Event :=
  match quantifier.lazy with
  | none => .chose .first
  | some _ => .chose .second

/-- The choice of a quantifier that leaves: the second, unless it is marked as lazy. -/
def Quantifier.leave (quantifier : Quantifier) : Event :=
  match quantifier.lazy with
  | none => .chose .second
  | some _ => .chose .first

/-- The meaning of a repeated body. -/
def Quantifier.language (quantifier : Quantifier) (body : Language Event) : Language Event :=
  match quantifier.repetition with
  | .zeroOrMore => loop quantifier.again quantifier.leave body
  | .oneOrMore => body * loop quantifier.again quantifier.leave body
  | .zeroOrOne => {[quantifier.again]} * body + {[quantifier.leave]}

/-- A single token contains its character alone, a range the characters from the one
before the `-` to the one behind it. A range written the other way round contains none. -/
def Member.Contains (member : Member) (c : Char) : Prop :=
  match member with
  | .single token => c = token.char
  | .range low high => low.char ≤ c ∧ c ≤ high.char

/-- A character that some member of a chain contains. -/
def Members.Contains (members : Members) (c : Char) : Prop :=
  match members with
  | .empty => False
  | .last member => member.Contains c
  | .link member tail => member.Contains c ∨ tail.Contains c

/-- The meaning of an atom: any character for a dot, otherwise the one it carries. -/
def atomLanguage (token : Token) : Language Event :=
  consuming fun c => token.kind = .dot ∨ c = token.char

/-- The meaning of a character class: a character that some member contains, or that
none contains if the class is negated. -/
def classLanguage (negation : Option Token) (members : Members) : Language Event :=
  match negation with
  | none => consuming fun c => members.Contains c
  | some _ => consuming fun c => ¬ members.Contains c

mutual

/-- The meaning of a regex: a choice between its first sequence and the rest. -/
def Regex.language (opened : Nat) : Regex → Language Event
  | .single sequence => sequence.language opened
  | .alternate sequence _ rest =>
    {[.chose .first]} * sequence.language opened +
      {[.chose .second]} * rest.language (opened + sequence.groups)

/-- The meaning of a sequence: its expressions one after the other. -/
def Sequence.language (opened : Nat) : Sequence → Language Event
  | .empty => 1
  | .last expr => expr.language opened
  | .link expr tail => expr.language opened * tail.language (opened + expr.groups)

/-- The meaning of an expression. -/
def Expr.language (opened : Nat) : Expr → Language Event
  | .mk term none => term.language opened
  | .mk term (some quantifier) => quantifier.language (term.language opened)

/-- The meaning of a term. A group saves its bounds in the two slots of its number. -/
def Term.language (opened : Nat) : Term → Language Event
  | .atom token => atomLanguage token
  | .group _ regex _ =>
    {[.saved (2 * opened)]} * regex.language (opened + 1) * {[.saved (2 * opened + 1)]}
  | .charClass _ negation members _ => classLanguage negation members

end

end RegexCompiler
