import RegexCompiler.Program

/-!
# Runs of a program

The machine holds the index of an instruction and the text it has yet to read.
An instruction that consumes or saves goes on to the next index, a branch goes to
its target, and a split goes to either target. Acceptance requires that no text
is left. Nothing here prefers one run over another: which target of a split was
taken is part of what the run records, so the preference among runs can be read
off their traces.

A run is counted in steps. The count carries the inductions over loops whose body
may consume nothing.
-/

namespace RegexCompiler

/-- The target of a split that a run goes to. -/
inductive Choice where
  | first
  | second
  deriving DecidableEq

/-- What a run records: characters it consumes, slots it saves to and the choices
it makes at splits. -/
inductive Event where
  | consumed (c : Char)
  | saved (slot : Nat)
  | chose (choice : Choice)
  deriving DecidableEq

/-- The events of a run in order. -/
abbrev Trace := List Event

/-- The character an event takes off the text, if any. -/
def Event.char? : Event → Option Char
  | .consumed c => some c
  | .saved _ => none
  | .chose _ => none

/-- The text that a trace consumes. -/
def Trace.text (trace : Trace) : List Char := trace.filterMap Event.char?

@[simp]
theorem Trace.text_nil : Trace.text [] = [] := rfl

@[simp]
theorem Trace.text_append (earlier later : Trace) :
    Trace.text (earlier ++ later) = Trace.text earlier ++ Trace.text later :=
  List.filterMap_append

@[simp]
theorem Trace.text_cons (event : Event) (later : Trace) :
    Trace.text (event :: later) = event.char?.toList ++ Trace.text later := by
  cases event <;> rfl

/-- A character between the two bounds of a range, both included. -/
def CharRange.Contains (range : CharRange) (c : Char) : Prop := range.1 ≤ c ∧ c ≤ range.2

/-- What an instruction at `index` may do: the events it records and the index
where the run goes on. An instruction that accepts does not move. -/
inductive Inst.Moves : Inst Nat → Nat → Trace → Nat → Prop where
  | char (c : Char) (index : Nat) : Moves (.char c) index [.consumed c] (index + 1)
  | any (c : Char) (index : Nat) : Moves .any index [.consumed c] (index + 1)
  | oneOf (ranges : List CharRange) (c : Char) (index : Nat)
      (inside : ∃ range ∈ ranges, CharRange.Contains range c) :
      Moves (.oneOf ranges) index [.consumed c] (index + 1)
  | noneOf (ranges : List CharRange) (c : Char) (index : Nat)
      (outside : ¬ ∃ range ∈ ranges, CharRange.Contains range c) :
      Moves (.noneOf ranges) index [.consumed c] (index + 1)
  | save (slot index : Nat) : Moves (.save slot) index [.saved slot] (index + 1)
  | jump (target index : Nat) : Moves (.jump target) index [] target
  | first (first second index : Nat) : Moves (.split first second) index [.chose .first] first
  | second (first second index : Nat) : Moves (.split first second) index [.chose .second] second

/-- The program accepts `text` from `index` in `steps` steps and records the
trace. The text each step takes is the text of the events it records. -/
inductive Program.RunsIn (program : Program) : Nat → Nat → List Char → Trace → Prop where
  | accept (index : Nat) (halted : program.insts[index]? = some .accept) :
      RunsIn program 0 index [] []
  | step (inst : Inst Nat) (steps index next : Nat) (events later : Trace) (rest : List Char)
      (fetched : program.insts[index]? = some inst) (moved : inst.Moves index events next)
      (continued : RunsIn program steps next rest later) :
      RunsIn program (steps + 1) index (Trace.text events ++ rest) (events ++ later)

/-- The program accepts the whole text from its first instruction by a run with
this trace. -/
def Program.Matches (program : Program) (text : List Char) (trace : Trace) : Prop :=
  ∃ steps, program.RunsIn steps 0 text trace

/-- A run from an instruction that does not accept takes one of its moves first. -/
theorem Program.RunsIn.unstep {program : Program} {inst : Inst Nat} {steps index : Nat}
    {text : List Char} {trace : Trace} (run : program.RunsIn steps index text trace)
    (fetched : program.insts[index]? = some inst) (busy : inst ≠ .accept) :
    ∃ fewer next events later rest, steps = fewer + 1 ∧ inst.Moves index events next ∧
      text = Trace.text events ++ rest ∧ trace = events ++ later ∧
      program.RunsIn fewer next rest later := by
  cases run with
  | accept _ halted =>
    have same : inst = .accept := Option.some.inj (fetched.symm.trans halted)
    exact absurd same busy
  | step other fewer _ next events later rest fetched' moved continued =>
    have same : inst = other := Option.some.inj (fetched.symm.trans fetched')
    exact ⟨fewer, next, events, later, rest, rfl, same ▸ moved, rfl, rfl, continued⟩

/-- A run that accepts where it starts has consumed everything. -/
theorem Program.RunsIn.ended {program : Program} {steps index : Nat} {text : List Char}
    {trace : Trace} (run : program.RunsIn steps index text trace)
    (halted : program.insts[index]? = some .accept) : text = [] ∧ trace = [] := by
  cases run with
  | accept _ _ => exact ⟨rfl, rfl⟩
  | step inst _ _ _ _ _ _ fetched moved _ =>
    have same : inst = .accept := Option.some.inj (fetched.symm.trans halted)
    subst same
    cases moved

end RegexCompiler
