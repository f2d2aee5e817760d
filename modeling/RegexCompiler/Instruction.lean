/-!
# Machine instructions

The machine keeps a position in the program and one in the text. An instruction
consumes a character, records the text position in a capture slot, moves to
another instruction, or accepts. Where an instruction does not branch, the one
after it is next.

Branch targets have a type of their own: finished programs use indices, code
under construction uses distances from the branching instruction.
-/

namespace RegexCompiler

/-- An inclusive range of characters, empty if its bounds are reversed. -/
abbrev CharRange := Char × Char

/-- One instruction, with branch targets of type `τ`. -/
inductive Inst (τ : Type) where
  /-- The text matched so far is a match. -/
  | accept
  /-- Consume this character. -/
  | char (c : Char)
  /-- Consume any character. -/
  | any
  /-- Consume a character that lies in one of the ranges. -/
  | oneOf (ranges : List CharRange)
  /-- Consume a character that lies in none of the ranges. -/
  | noneOf (ranges : List CharRange)
  /-- Record the text position. -/
  | save (slot : Nat)
  /-- Go to the target. -/
  | jump (target : τ)
  /-- Go to either target, preferably to the first. -/
  | split (first second : τ)
  deriving DecidableEq

namespace Inst

variable {τ υ : Type}

/-- Branch targets in order of preference. -/
def targets : Inst τ → List τ
  | .jump target => [target]
  | .split first second => [first, second]
  | _ => []

/-- Replace every branch target. -/
def mapTargets (f : τ → υ) : Inst τ → Inst υ
  | .accept => .accept
  | .char c => .char c
  | .any => .any
  | .oneOf ranges => .oneOf ranges
  | .noneOf ranges => .noneOf ranges
  | .save slot => .save slot
  | .jump target => .jump (f target)
  | .split first second => .split (f first) (f second)

/-- Targets are replaced one by one. -/
theorem targets_mapTargets (f : τ → υ) (inst : Inst τ) :
    (inst.mapTargets f).targets = inst.targets.map f := by
  cases inst <;> rfl

/-- Only what becomes of its own targets matters to an instruction. -/
theorem mapTargets_congr {f g : τ → υ} {inst : Inst τ}
    (same : ∀ target ∈ inst.targets, f target = g target) :
    inst.mapTargets f = inst.mapTargets g := by
  cases inst with
  | jump target => simp [mapTargets, same target (by simp [targets])]
  | split first second =>
    simp [mapTargets, same first (by simp [targets]), same second (by simp [targets])]
  | accept | char | any | oneOf | noneOf | save => rfl

/-- Targets that are replaced twice are replaced once by the outcome. -/
theorem mapTargets_mapTargets {φ : Type} (f : τ → υ) (g : υ → φ) (inst : Inst τ) :
    (inst.mapTargets f).mapTargets g = inst.mapTargets fun target => g (f target) := by
  cases inst <;> rfl

/-- Targets that are replaced and then restored are as before. -/
theorem mapTargets_mapTargets_eq_self (f : τ → υ) (g : υ → τ) (inst : Inst τ)
    (restored : ∀ target ∈ inst.targets, g (f target) = target) :
    (inst.mapTargets f).mapTargets g = inst := by
  rw [mapTargets_mapTargets, mapTargets_congr restored]
  cases inst <;> rfl

/-- Replace every branch target in a computation, the preferred one first. -/
def mapTargetsM {m : Type → Type} [Monad m] (f : τ → m υ) : Inst τ → m (Inst υ)
  | .accept => pure .accept
  | .char c => pure (.char c)
  | .any => pure .any
  | .oneOf ranges => pure (.oneOf ranges)
  | .noneOf ranges => pure (.noneOf ranges)
  | .save slot => pure (.save slot)
  | .jump target => do
    let target ← f target
    pure (.jump target)
  | .split first second => do
    let first ← f first
    let second ← f second
    pure (.split first second)

end Inst

end RegexCompiler
