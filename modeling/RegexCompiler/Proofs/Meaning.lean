import RegexCompiler.Proofs.Denotation

/-!
# Compiled code means what its tree means

A stretch of a program realizes a language if the runs that enter it at one index
are exactly a trace of the language followed by a run from another index. There
is one law for each way in which code is put together: instructions in a row, a
branch to two stretches, and a branch back from the end of a stretch to its
start. The layout of each construct is an instance of these laws, and induction
over the tree composes them.

The second half of the definition bounds the steps of the remaining run. A loop
may go around without consuming anything, so the text does not get shorter there;
the number of steps does.
-/

namespace RegexCompiler

/-- Runs from `entry` are the traces of the language, each continued by a run from
`leaving` on the text that is left, which takes no more steps than the whole. -/
structure Program.Realizes (program : Program) (entry leaving : Nat)
    (language : Language Event) : Prop where
  extends_run : ∀ trace ∈ language, ∀ steps rest later, program.RunsIn steps leaving rest later →
    ∃ more, program.RunsIn more entry (Trace.text trace ++ rest) (trace ++ later)
  splits_run : ∀ steps text whole, program.RunsIn steps entry text whole →
    ∃ fewer trace rest later, fewer ≤ steps ∧ trace ∈ language ∧
      text = Trace.text trace ++ rest ∧ whole = trace ++ later ∧
      program.RunsIn fewer leaving rest later

/-- The instruction at an index goes to one of two indices and records which. -/
def Program.BranchesAt (program : Program) (index : Nat) (left right : Event)
    (toLeft toRight : Nat) : Prop :=
  ∃ inst, program.insts[index]? = some inst ∧ inst ≠ .accept ∧
    ∀ events next, inst.Moves index events next ↔
      events = [left] ∧ next = toLeft ∨ events = [right] ∧ next = toRight

namespace Program.Realizes

variable {program : Program}

/-- No code realizes the empty trace. -/
theorem stay (index : Nat) : program.Realizes index index 1 where
  extends_run := by
    rintro _ rfl steps rest later run
    exact ⟨steps, run⟩
  splits_run := by
    intro steps text whole run
    exact ⟨steps, [], text, whole, Nat.le_refl _, rfl, rfl, rfl, run⟩

/-- Stretches in a row realize the product of their languages. -/
theorem andThen {entry middle leaving : Nat} {left right : Language Event}
    (first : program.Realizes entry middle left)
    (second : program.Realizes middle leaving right) :
    program.Realizes entry leaving (left * right) where
  extends_run := by
    rintro _ ⟨before, inLeft, after, inRight, rfl⟩ steps rest later run
    obtain ⟨more, continued⟩ := second.extends_run after inRight steps rest later run
    simpa [List.append_assoc] using first.extends_run before inLeft more _ _ continued
  splits_run := by
    intro steps text whole run
    obtain ⟨fewer, before, _, _, bounded, inLeft, rfl, rfl, continued⟩ :=
      first.splits_run steps text whole run
    obtain ⟨least, after, rest, later, bounded', inRight, rfl, rfl, final⟩ :=
      second.splits_run _ _ _ continued
    exact ⟨least, before ++ after, rest, later, bounded'.trans bounded,
      Language.append_mem_mul inLeft inRight, by simp, by simp, final⟩

/-- An instruction whose moves all lead to one index realizes the events it
records. -/
theorem instruction {index next : Nat} {language : Language Event} {inst : Inst Nat}
    (fetched : program.insts[index]? = some inst) (busy : inst ≠ .accept)
    (moves : ∀ events target, inst.Moves index events target ↔ events ∈ language ∧ target = next) :
    program.Realizes index next language where
  extends_run := by
    intro trace inside steps rest later run
    exact ⟨steps + 1, .step inst steps index next trace later rest fetched
      ((moves trace next).mpr ⟨inside, rfl⟩) run⟩
  splits_run := by
    intro steps text whole run
    obtain ⟨fewer, target, events, later, rest, rfl, moved, rfl, rfl, continued⟩ :=
      run.unstep fetched busy
    obtain ⟨inside, rfl⟩ := (moves events target).mp moved
    exact ⟨fewer, events, rest, later, Nat.le_succ _, inside, rfl, rfl, continued⟩

/-- A branch to two stretches with a common end realizes either language, marked by
the choice. -/
theorem branch {index toLeft toRight leaving : Nat} {left right : Event}
    {onLeft onRight : Language Event}
    (branches : program.BranchesAt index left right toLeft toRight)
    (first : program.Realizes toLeft leaving onLeft)
    (second : program.Realizes toRight leaving onRight) :
    program.Realizes index leaving ({[left]} * onLeft + {[right]} * onRight) := by
  obtain ⟨inst, fetched, busy, moves⟩ := branches
  have arm (mark : Event) (target : Nat) (language : Language Event)
      (moved : inst.Moves index [mark] target)
      (realizes : program.Realizes target leaving language) :
      ∀ trace ∈ ({[mark]} * language : Language Event), ∀ steps rest later,
        program.RunsIn steps leaving rest later →
        ∃ more, program.RunsIn more index (Trace.text trace ++ rest) (trace ++ later) := by
    rintro _ ⟨_, rfl, inner, inside, rfl⟩ steps rest later run
    obtain ⟨more, continued⟩ := realizes.extends_run inner inside steps rest later run
    refine ⟨more + 1, ?_⟩
    simpa [List.append_assoc] using
      RunsIn.step inst more index target [mark] _ _ fetched moved continued
  constructor
  · rintro trace (inLeft | inRight)
    · exact arm left toLeft onLeft ((moves _ _).mpr (.inl ⟨rfl, rfl⟩)) first trace inLeft
    · exact arm right toRight onRight ((moves _ _).mpr (.inr ⟨rfl, rfl⟩)) second trace inRight
  · intro steps text whole run
    obtain ⟨fewer, target, events, _, _, rfl, moved, rfl, rfl, continued⟩ :=
      run.unstep fetched busy
    rcases (moves events target).mp moved with ⟨rfl, rfl⟩ | ⟨rfl, rfl⟩
    · obtain ⟨least, inner, rest, later, bounded, inside, rfl, rfl, final⟩ :=
        first.splits_run _ _ _ continued
      exact ⟨least, [left] ++ inner, rest, later, by omega,
        .inl (Language.append_mem_mul rfl inside), by simp, by simp, final⟩
    · obtain ⟨least, inner, rest, later, bounded, inside, rfl, rfl, final⟩ :=
        second.splits_run _ _ _ continued
      exact ⟨least, [right] ++ inner, rest, later, by omega,
        .inr (Language.append_mem_mul rfl inside), by simp, by simp, final⟩

/-- A branch into a stretch that ends at the branch itself realizes the loop over
its language.

A trace of the loop becomes a run by induction on its turns. A run becomes a trace
by induction on its steps: the branch takes one, and the body leaves no more than
were left after it, so the run that comes back to the branch is shorter. -/
theorem loop {index body leaving : Nat} {again leave : Event} {language : Language Event}
    (branches : program.BranchesAt index again leave body leaving)
    (turn : program.Realizes body index language) :
    program.Realizes index leaving (loop again leave language) := by
  obtain ⟨inst, fetched, busy, moves⟩ := branches
  constructor
  · intro trace looped steps rest later run
    refine loop_induction again leave language
      (fun trace => ∃ more, program.RunsIn more index (Trace.text trace ++ rest) (trace ++ later))
      ?_ ?_ trace looped
    · exact ⟨steps + 1, RunsIn.step inst steps index leaving [leave] later rest fetched
        ((moves _ _).mpr (.inr ⟨rfl, rfl⟩)) run⟩
    · rintro inner turned remainder ⟨more, continued⟩
      obtain ⟨total, around⟩ := turn.extends_run inner turned more _ _ continued
      refine ⟨total + 1, ?_⟩
      have entered : inst.Moves index [again] body := (moves _ _).mpr (.inl ⟨rfl, rfl⟩)
      simpa [List.append_assoc] using
        RunsIn.step inst total index body [again] _ _ fetched entered around
  · intro steps
    induction steps using Nat.strongRecOn with
    | ind steps inductionHypothesis =>
      intro text whole run
      obtain ⟨fewer, target, events, _, _, rfl, moved, rfl, rfl, continued⟩ :=
        run.unstep fetched busy
      rcases (moves events target).mp moved with ⟨rfl, rfl⟩ | ⟨rfl, rfl⟩
      · obtain ⟨back, inner, _, _, bounded, turned, rfl, rfl, returned⟩ :=
          turn.splits_run _ _ _ continued
        obtain ⟨least, remainder, rest, later, bounded', looped, rfl, rfl, final⟩ :=
          inductionHypothesis back (by omega) _ _ returned
        exact ⟨least, again :: inner ++ remainder, rest, later, by omega,
          turn_mem_loop again leave language inner remainder turned looped, by simp, by simp, final⟩
      · exact ⟨fewer, [leave], _, _, Nat.le_succ _, leave_mem_loop again leave language,
          rfl, rfl, continued⟩

end Program.Realizes

/-! ### The instructions of each construct -/

/-- A split of distances that stay in the program branches to both and records the
choice. -/
theorem Program.branchesAt_split (program : Program) (index : Nat) (first second : Int)
    (fetched : program.insts[index]? = some ((Inst.split first second).placedAt index)) :
    program.BranchesAt index (.chose .first) (.chose .second)
      ((index : Int) + first).toNat ((index : Int) + second).toNat := by
  refine ⟨_, fetched, by simp [Inst.placedAt, Inst.mapTargets], ?_⟩
  intro events next
  constructor
  · intro moved
    cases moved with
    | first => exact .inl ⟨rfl, rfl⟩
    | second => exact .inr ⟨rfl, rfl⟩
  · rintro (⟨rfl, rfl⟩ | ⟨rfl, rfl⟩)
    · exact .first _ _ _
    · exact .second _ _ _

/-- The split of a quantifier branches into the body by its choice to repeat and
onwards by its choice to leave, in either order of its targets. -/
theorem Program.branchesAt_quantifier (program : Program) (quantifier : Quantifier) (index : Nat)
    (body leaving : Int)
    (fetched : program.insts[index]? = some ((quantifier.split body leaving).placedAt index)) :
    program.BranchesAt index quantifier.again quantifier.leave
      ((index : Int) + body).toNat ((index : Int) + leaving).toNat := by
  rw [Quantifier.again, Quantifier.leave]
  cases marked : quantifier.lazy with
  | none =>
    have split : quantifier.split body leaving = .split body leaving := by
      simp [Quantifier.split, Quantifier.isGreedy, marked]
    rw [split] at fetched
    exact program.branchesAt_split index body leaving fetched
  | some mark =>
    have split : quantifier.split body leaving = .split leaving body := by
      simp [Quantifier.split, Quantifier.isGreedy, marked]
    rw [split] at fetched
    obtain ⟨inst, found, busy, moves⟩ := program.branchesAt_split index leaving body fetched
    refine ⟨inst, found, busy, ?_⟩
    intro events next
    exact (moves events next).trans or_comm

/-- A jump of a distance that stays in the program realizes the empty trace. -/
theorem Program.realizes_jump (program : Program) (index : Nat) (distance : Int)
    (fetched : program.insts[index]? = some ((Inst.jump distance).placedAt index)) :
    program.Realizes index ((index : Int) + distance).toNat 1 := by
  refine Realizes.instruction fetched (by simp [Inst.placedAt, Inst.mapTargets]) ?_
  intro events target
  constructor
  · intro moved
    cases moved
    exact ⟨rfl, rfl⟩
  · rintro ⟨rfl, rfl⟩
    exact .jump _ _

/-- A save realizes the event it records. -/
theorem Program.realizes_save (program : Program) (index slot : Nat)
    (fetched : program.insts[index]? = some ((Inst.save slot).placedAt index)) :
    program.Realizes index (index + 1) {[.saved slot]} := by
  refine Realizes.instruction fetched (by simp [Inst.placedAt, Inst.mapTargets]) ?_
  intro events target
  constructor
  · intro moved
    cases moved
    exact ⟨rfl, rfl⟩
  · rintro ⟨rfl, rfl⟩
    exact .save _ _

/-- The instruction of an atom realizes its meaning. -/
theorem Program.realizes_atom (program : Program) (index : Nat) (token : Token)
    (fetched : program.insts[index]? = some ((atomInst token).placedAt index)) :
    program.Realizes index (index + 1) (atomLanguage token) := by
  by_cases dot : token.kind = .dot
  · have any : atomInst token = .any := by simp [atomInst, dot]
    rw [any] at fetched
    refine Realizes.instruction fetched (by simp [Inst.placedAt, Inst.mapTargets]) ?_
    intro events target
    constructor
    · intro moved
      cases moved with
      | any c => exact ⟨⟨c, .inl dot, rfl⟩, rfl⟩
    · rintro ⟨⟨c, _, rfl⟩, rfl⟩
      exact .any c _
  · have char : atomInst token = .char token.char := by
      rw [atomInst]
      split
      · contradiction
      · rfl
    rw [char] at fetched
    refine Realizes.instruction fetched (by simp [Inst.placedAt, Inst.mapTargets]) ?_
    intro events target
    constructor
    · intro moved
      cases moved
      exact ⟨⟨token.char, .inr rfl, rfl⟩, rfl⟩
    · rintro ⟨⟨c, carried, rfl⟩, rfl⟩
      obtain rfl := carried.resolve_left dot
      exact .char _ _

/-- A character lies within the bounds of a member exactly if the member contains it. -/
theorem Member.contains_bounds_iff (member : Member) (c : Char) :
    CharRange.Contains member.bounds c ↔ member.Contains c := by
  cases member with
  | single token =>
    constructor
    · rintro ⟨atLeast, atMost⟩
      exact Char.le_antisymm atMost atLeast
    · rintro rfl
      exact ⟨Char.le_refl _, Char.le_refl _⟩
  | range low high => exact Iff.rfl

/-- A character lies in one of the ranges of a class exactly if some member contains it. -/
theorem Members.exists_range_iff (members : Members) (c : Char) :
    (∃ range ∈ members.toList.map Member.bounds, CharRange.Contains range c) ↔
      members.Contains c := by
  induction members with
  | empty => simp [toList, collect, Contains]
  | last member => simp [toList, collect, Contains, member.contains_bounds_iff]
  | link member tail inductionHypothesis =>
    rw [toList_link, List.map_cons, List.exists_mem_cons_iff, member.contains_bounds_iff,
      inductionHypothesis, Contains]

/-- The instruction of a character class realizes its meaning. -/
theorem Program.realizes_class (program : Program) (index : Nat) (negation : Option Token)
    (members : Members)
    (fetched : program.insts[index]? = some ((classInst negation members).placedAt index)) :
    program.Realizes index (index + 1) (classLanguage negation members) := by
  cases negation with
  | none =>
    refine Realizes.instruction fetched (by simp [classInst, Inst.placedAt, Inst.mapTargets]) ?_
    intro events target
    constructor
    · intro moved
      cases moved with
      | oneOf _ c _ inside => exact ⟨⟨c, (members.exists_range_iff c).mp inside, rfl⟩, rfl⟩
    · rintro ⟨⟨c, inside, rfl⟩, rfl⟩
      exact .oneOf _ c _ ((members.exists_range_iff c).mpr inside)
  | some caret =>
    refine Realizes.instruction fetched (by simp [classInst, Inst.placedAt, Inst.mapTargets]) ?_
    intro events target
    constructor
    · intro moved
      cases moved with
      | noneOf _ c _ outside =>
        exact ⟨⟨c, mt (members.exists_range_iff c).mpr outside, rfl⟩, rfl⟩
    · rintro ⟨⟨c, outside, rfl⟩, rfl⟩
      exact .noneOf _ c _ (mt (members.exists_range_iff c).mp outside)

/-- A repetition realizes the meaning of its quantifier over whatever its body
realizes wherever it stands. -/
theorem Program.realizes_quantifier (program : Program) (quantifier : Quantifier) (base : Nat)
    (body : Block) (language : Language Event)
    (placed : program.Holds base (quantifier.layout body))
    (inner : ∀ start, program.Holds start body →
      program.Realizes start (start + body.length) language) :
    program.Realizes base (base + (quantifier.layout body).length)
      (quantifier.language language) := by
  unfold Quantifier.layout at placed ⊢
  rw [Quantifier.language]
  cases kind : quantifier.repetition with
  | zeroOrMore =>
    simp only [kind, holds_cons, holds_append] at placed ⊢
    obtain ⟨splits, held, jumps, _⟩ := placed
    have branches := program.branchesAt_quantifier quantifier base _ _ splits
    have back := program.realizes_jump _ _ jumps
    rw [show ((base : Int) + 1).toNat = base + 1 by omega,
      show ((base : Int) + (body.length + 2)).toNat = base + (body.length + 2) by omega] at branches
    rw [show (((base + 1 + body.length : Nat) : Int) + -(body.length + 1)).toNat = base by omega]
      at back
    have turn := (inner (base + 1) held).andThen back
    rw [mul_one] at turn
    simpa using Realizes.loop branches turn
  | oneOrMore =>
    simp only [kind, holds_cons, holds_append] at placed ⊢
    obtain ⟨held, splits, _⟩ := placed
    have branches := program.branchesAt_quantifier quantifier (base + body.length) _ _ splits
    rw [show (((base + body.length : Nat) : Int) + -body.length).toNat = base by omega,
      show (((base + body.length : Nat) : Int) + 1).toNat = base + (body.length + 1) by omega]
      at branches
    have first := inner base held
    simpa using first.andThen (Realizes.loop branches first)
  | zeroOrOne =>
    simp only [kind, holds_cons] at placed ⊢
    obtain ⟨splits, held⟩ := placed
    have branches := program.branchesAt_quantifier quantifier base _ _ splits
    rw [show ((base : Int) + 1).toNat = base + 1 by omega,
      show ((base : Int) + (body.length + 1)).toNat = base + 1 + body.length by omega] at branches
    have either := Realizes.branch branches (inner (base + 1) held) (Realizes.stay _)
    rw [mul_one] at either
    simpa [Nat.add_assoc, Nat.add_comm 1] using either

/-- An alternative before others realizes its own meaning or theirs, marked by the
choice. -/
theorem Program.realizes_alternate (program : Program) (base : Nat) (branch later : Block)
    (onBranch onLater : Language Event) (placed : program.Holds base (alternateLayout branch later))
    (first : ∀ start, program.Holds start branch →
      program.Realizes start (start + branch.length) onBranch)
    (second : ∀ start, program.Holds start later →
      program.Realizes start (start + later.length) onLater) :
    program.Realizes base (base + (alternateLayout branch later).length)
      ({[.chose .first]} * onBranch + {[.chose .second]} * onLater) := by
  simp only [alternateLayout, holds_cons, holds_append] at placed
  obtain ⟨splits, heldBranch, jumps, heldLater⟩ := placed
  have branches := program.branchesAt_split base _ _ splits
  have skips := program.realizes_jump _ _ jumps
  have ends : base + (alternateLayout branch later).length =
      base + 1 + branch.length + 1 + later.length := by
    simp only [alternateLayout, List.length_cons, List.length_append]
    omega
  rw [show ((base : Int) + 1).toNat = base + 1 by omega,
    show ((base : Int) + (branch.length + 2)).toNat = base + 1 + branch.length + 1 by omega]
    at branches
  rw [show (((base + 1 + branch.length : Nat) : Int) + (later.length + 1)).toNat =
    base + 1 + branch.length + 1 + later.length by omega] at skips
  have taken := (first (base + 1) heldBranch).andThen skips
  rw [mul_one] at taken
  rw [ends]
  exact Realizes.branch branches taken (second _ heldLater)

mutual

/-- The block of a regex realizes its meaning wherever it stands. -/
theorem Regex.realizes (regex : Regex) (program : Program) (opened base : Nat)
    (placed : program.Holds base (regex.layout (2 * opened))) :
    program.Realizes base (base + (regex.layout (2 * opened)).length) (regex.language opened) := by
  cases regex with
  | single sequence => exact sequence.realizes program opened base placed
  | alternate sequence pipe rest =>
    simp only [Regex.layout, Regex.language, ← Nat.mul_add] at placed ⊢
    exact program.realizes_alternate base _ _ _ _ placed
      (fun start held => sequence.realizes program opened start held)
      (fun start held => rest.realizes program (opened + sequence.groups) start held)

/-- The block of a sequence realizes its meaning wherever it stands. -/
theorem Sequence.realizes (sequence : Sequence) (program : Program) (opened base : Nat)
    (placed : program.Holds base (sequence.layout (2 * opened))) :
    program.Realizes base (base + (sequence.layout (2 * opened)).length)
      (sequence.language opened) := by
  cases sequence with
  | empty => exact Program.Realizes.stay base
  | last expr => exact expr.realizes program opened base placed
  | link expr tail =>
    simp only [Sequence.layout, Sequence.language, ← Nat.mul_add, Program.holds_append] at placed ⊢
    have first := expr.realizes program opened base placed.1
    have second := tail.realizes program (opened + expr.groups) _ placed.2
    rw [List.length_append, ← Nat.add_assoc]
    exact first.andThen second

/-- The block of an expression realizes its meaning wherever it stands. -/
theorem Expr.realizes (expr : Expr) (program : Program) (opened base : Nat)
    (placed : program.Holds base (expr.layout (2 * opened))) :
    program.Realizes base (base + (expr.layout (2 * opened)).length) (expr.language opened) := by
  cases expr with
  | mk term quantifier =>
    cases quantifier with
    | none => exact term.realizes program opened base placed
    | some quantifier =>
      exact program.realizes_quantifier quantifier base _ _ placed
        (fun start held => term.realizes program opened start held)

/-- The block of a term realizes its meaning wherever it stands. -/
theorem Term.realizes (term : Term) (program : Program) (opened base : Nat)
    (placed : program.Holds base (term.layout (2 * opened))) :
    program.Realizes base (base + (term.layout (2 * opened)).length) (term.language opened) := by
  cases term with
  | atom token =>
    simp only [Term.layout, Program.holds_cons] at placed
    exact program.realizes_atom base token placed.1
  | group opening regex closing =>
    simp only [Term.layout, Term.language, Program.holds_cons, Program.holds_append,
      show 2 * opened + 2 = 2 * (opened + 1) by omega] at placed ⊢
    obtain ⟨opens, held, closes, _⟩ := placed
    have entered := program.realizes_save base (2 * opened) opens
    have inner := regex.realizes program (opened + 1) (base + 1) held
    have left := program.realizes_save _ (2 * opened + 1) closes
    have whole := (entered.andThen inner).andThen left
    simpa [Nat.add_assoc, Nat.add_comm 1] using whole
  | charClass opening negation members closing =>
    simp only [Term.layout, Program.holds_cons] at placed
    exact program.realizes_class base negation members placed.1

end

/-- The program of a tree accepts a text with a trace exactly if the trace belongs
to the meaning of the tree and consumes that text. Traces tell the characters, the
slots and the choices of a run in order, so meaning, captures and preferences are
all preserved.

The block of the tree realizes its meaning from the first instruction to the
placeholder, and from the placeholder the only run is to accept at once. -/
theorem Regex.program_matches_iff (regex : Regex) (text : List Char) (trace : Trace) :
    regex.program.Matches text trace ↔ trace ∈ regex.language 0 ∧ Trace.text trace = text := by
  have placed := regex.program_holds
  rw [Program.holds_append, Program.holds_cons] at placed
  obtain ⟨held, halted, _⟩ := placed
  have realized := regex.realizes regex.program 0 0 held
  constructor
  · rintro ⟨steps, run⟩
    obtain ⟨_, spelled, _, _, _, inside, rfl, rfl, final⟩ := realized.splits_run _ _ _ run
    obtain ⟨rfl, rfl⟩ := final.ended halted
    simpa using inside
  · rintro ⟨inside, rfl⟩
    simpa [Program.Matches] using realized.extends_run trace inside 0 [] [] (.accept _ halted)

end RegexCompiler
