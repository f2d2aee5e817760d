import RegexCompiler.Proofs.Acceptance

/-!
# How far a list of kinds can still become a pattern

A list of kinds is viable if it begins some derivable list with the end of input
behind it. Viability is decided from left to right by an automaton that remembers the
number of open groups and what was read last: whether an operator may repeat it,
whether a `?` may make that operator lazy, and whether it stands between brackets.

The automaton and the grammar agree. A derivable list leads the automaton from any
stage outside brackets to such a stage at the same depth. Conversely every stage
describes what was read to get there: one derivable regex for each open group, then
perhaps a term or a class that is not finished yet. Such a list is completed by
closing the class and the groups.
-/

namespace RegexCompiler

/-- The kinds begin a derivable list with the end of input behind it. -/
def Viable (nesting : Nat) (kinds : List Kind) : Prop :=
  ∃ whole, Derives .regex nesting whole ∧ kinds <+: whole ++ [.endOfInput]

/-- What begins a viable list is viable. -/
theorem Viable.of_isPrefix {nesting : Nat} {kinds longer : List Kind}
    (viable : Viable nesting longer) (begins : kinds <+: longer) : Viable nesting kinds := by
  obtain ⟨whole, derivation, inside⟩ := viable
  exact ⟨whole, derivation, begins.trans inside⟩

/-! ### The automaton -/

/-- What was read last: nothing that can be repeated, a term, an operator, the bracket
that opens a class, something else in a class, or the end of input. -/
inductive Mode where
  | start
  | term
  | operator
  | bracket
  | member
  | finished
  deriving DecidableEq

/-- Modes outside brackets and before the end of input. -/
def Mode.IsOutside (mode : Mode) : Prop := mode = .start ∨ mode = .term ∨ mode = .operator

/-- Modes between brackets. -/
def Mode.IsInside (mode : Mode) : Prop := mode = .bracket ∨ mode = .member

/-- The number of open groups and what was read last. -/
structure Stage where
  depth : Nat
  mode : Mode
  deriving DecidableEq

/-- Where a list of kinds begins. -/
def Stage.initial : Stage := ⟨0, .start⟩

instance (kind : Kind) : Decidable kind.IsOperator :=
  inferInstanceAs (Decidable (kind = .plus ∨ kind = .star ∨ kind = .question))

/-- Where a kind leads outside brackets that does not quantify what is before it. -/
def outsideStep (limit : Option Nat) (depth : Nat) : Kind → Option Stage
  | .literal | .dot | .escape => some ⟨depth, .term⟩
  | .leftParen => if limit = some depth then none else some ⟨depth + 1, .start⟩
  | .rightParen => if depth = 0 then none else some ⟨depth - 1, .term⟩
  | .leftBracket => some ⟨depth, .bracket⟩
  | .pipe => some ⟨depth, .start⟩
  | .endOfInput => if depth = 0 then some ⟨0, .finished⟩ else none
  | _ => none

/-- Where a kind leads between brackets that does not negate the class. -/
def insideStep (depth : Nat) : Kind → Option Stage
  | .literal | .minus => some ⟨depth, .member⟩
  | .rightBracket => some ⟨depth, .term⟩
  | _ => none

namespace Stage

/-- Where a kind leads, if it can stand here. -/
def step (limit : Option Nat) (stage : Stage) (kind : Kind) : Option Stage :=
  match stage.mode with
  | .start => outsideStep limit stage.depth kind
  | .term =>
    if kind.IsOperator then some ⟨stage.depth, .operator⟩ else outsideStep limit stage.depth kind
  | .operator =>
    if kind = .question then some ⟨stage.depth, .start⟩ else outsideStep limit stage.depth kind
  | .bracket => if kind = .caret then some ⟨stage.depth, .member⟩ else insideStep stage.depth kind
  | .member => insideStep stage.depth kind
  | .finished => none

/-- Where kinds lead one after the other, if each can stand where it does. -/
def walk (limit : Option Nat) (stage : Stage) (kinds : List Kind) : Option Stage :=
  kinds.foldlM (step limit) stage

variable {limit : Option Nat} {stage : Stage}

/-- The first kind leads to the stage from where the others go on. -/
theorem walk_cons (kind : Kind) (kinds : List Kind) :
    stage.walk limit (kind :: kinds) =
      (stage.step limit kind).bind fun next => next.walk limit kinds := by
  rw [walk, List.foldlM_cons]
  rfl

/-- The first kinds lead to the stage from where the others go on. -/
theorem walk_append (left right : List Kind) :
    stage.walk limit (left ++ right) =
      (stage.walk limit left).bind fun middle => middle.walk limit right := by
  rw [walk, List.foldlM_append]
  rfl

/-- A single kind leads where its step does. -/
@[simp]
theorem walk_singleton (kind : Kind) : stage.walk limit [kind] = stage.step limit kind := by
  rw [walk_cons]
  exact Option.bind_fun_some _

/-- Walks follow one another. -/
theorem walk_trans {middle reached : Stage} {left right : List Kind}
    (first : stage.walk limit left = some middle)
    (second : middle.walk limit right = some reached) :
    stage.walk limit (left ++ right) = some reached := by
  rw [walk_append, first]
  exact second

/-- A step goes before a walk. -/
theorem walk_step {middle reached : Stage} {kind : Kind} {kinds : List Kind}
    (first : stage.step limit kind = some middle)
    (second : middle.walk limit kinds = some reached) :
    stage.walk limit (kind :: kinds) = some reached := by
  rw [walk_cons, first]
  exact second

/-- Where a walk gets through, so does what it begins with. -/
theorem walk_of_isPrefix {reached : Stage} {kinds longer : List Kind} (begins : kinds <+: longer)
    (walked : stage.walk limit longer = some reached) :
    ∃ middle, stage.walk limit kinds = some middle := by
  obtain ⟨behind, rfl⟩ := begins
  rw [walk_append] at walked
  obtain ⟨middle, early, _⟩ := Option.bind_eq_some_iff.mp walked
  exact ⟨middle, early⟩

/-- Outside brackets a kind that is no operator is read alike, whatever is before it. -/
theorem step_outside {depth : Nat} {mode : Mode} {kind : Kind} (outside : mode.IsOutside)
    (plain : ¬ kind.IsOperator) :
    (⟨depth, mode⟩ : Stage).step limit kind = outsideStep limit depth kind := by
  have noMark : kind ≠ .question := fun question => plain (.inr (.inr question))
  rcases outside with rfl | rfl | rfl
  · rfl
  · exact if_neg plain
  · exact if_neg noMark

/-- Between brackets a kind other than the caret is read alike everywhere. -/
theorem step_inside {depth : Nat} {mode : Mode} {kind : Kind} (inside : mode.IsInside)
    (noCaret : kind ≠ .caret) :
    (⟨depth, mode⟩ : Stage).step limit kind = insideStep depth kind := by
  rcases inside with rfl | rfl
  · exact if_neg noCaret
  · rfl

/-- Members lead to a member, or nowhere if there are none. -/
theorem walk_members (limit : Option Nat) (depth : Nat) (mode : Mode) (kinds : List Kind)
    (inside : mode.IsInside) (allMembers : ∀ kind ∈ kinds, kind.IsMember) :
    ∃ last : Mode, (kinds = [] ∧ last = mode ∨ last = .member) ∧
      (⟨depth, mode⟩ : Stage).walk limit kinds = some ⟨depth, last⟩ := by
  induction kinds generalizing mode with
  | nil => exact ⟨mode, .inl ⟨rfl, rfl⟩, rfl⟩
  | cons kind others inductionHypothesis =>
    rw [List.forall_mem_cons] at allMembers
    obtain ⟨last, stays, walked⟩ := inductionHypothesis .member (.inr rfl) allMembers.2
    refine ⟨last, .inr (stays.elim And.right id), walk_step ?_ walked⟩
    rcases allMembers.1 with rfl | rfl
    · exact step_inside inside (by decide)
    · exact step_inside inside (by decide)

end Stage

/-! ### Derivable lists lead through the automaton -/

/-- Groups may be nested `nesting` deep inside `depth` open ones. -/
def HasRoom (limit : Option Nat) (depth nesting : Nat) : Prop :=
  ∀ bound ∈ limit, depth + nesting ≤ bound

/-- How the kinds of a symbol lead through the automaton. Outside brackets they are read
after anything and end outside brackets at the same depth; a term can be repeated. -/
def Symbol.Leads (limit : Option Nat) : Symbol → Nat → List Kind → Prop
  | .members => fun _ kinds => ∀ kind ∈ kinds, kind.IsMember
  | .term => fun nesting kinds => ∀ (depth : Nat) (mode : Mode), HasRoom limit depth nesting →
      mode.IsOutside → (⟨depth, mode⟩ : Stage).walk limit kinds = some ⟨depth, .term⟩
  | _ => fun nesting kinds => ∀ (depth : Nat) (mode : Mode), HasRoom limit depth nesting →
      mode.IsOutside → ∃ last : Mode, last.IsOutside ∧
        (⟨depth, mode⟩ : Stage).walk limit kinds = some ⟨depth, last⟩

/-- A class is a term. -/
theorem Stage.walk_charClass {limit : Option Nat} {depth : Nat} {mode inner : Mode}
    (caret kinds : List Kind) (outside : mode.IsOutside)
    (opened : (⟨depth, .bracket⟩ : Stage).walk limit caret = some ⟨depth, inner⟩)
    (inside : inner.IsInside) (allMembers : ∀ kind ∈ kinds, kind.IsMember) :
    (⟨depth, mode⟩ : Stage).walk limit (.leftBracket :: (caret ++ (kinds ++ [.rightBracket]))) =
      some ⟨depth, .term⟩ := by
  obtain ⟨last, stays, walked⟩ := walk_members limit depth inner kinds inside allMembers
  have lastInside : last.IsInside := by
    rcases stays with ⟨_, rfl⟩ | rfl
    · exact inside
    · exact .inr rfl
  have opens : (⟨depth, mode⟩ : Stage).step limit .leftBracket = some ⟨depth, .bracket⟩ :=
    step_outside outside (by decide)
  have closes : (⟨depth, last⟩ : Stage).walk limit [.rightBracket] = some ⟨depth, .term⟩ := by
    rw [walk_singleton]
    exact step_inside lastInside (by decide)
  exact walk_step opens (walk_trans opened (walk_trans walked closes))

/-- Every derivable list leads through the automaton as its symbol says. -/
theorem Derives.leads {limit : Option Nat} {symbol : Symbol} {nesting : Nat} {kinds : List Kind}
    (derivation : Derives symbol nesting kinds) : symbol.Leads limit nesting kinds := by
  induction derivation with
  | single sequence inner => exact inner
  | alternate sequence rest first others =>
    intro depth mode room outside
    obtain ⟨middle, middleOutside, left⟩ := first depth mode room outside
    obtain ⟨last, lastOutside, right⟩ := others depth .start room (.inl rfl)
    refine ⟨last, lastOutside, Stage.walk_trans left (Stage.walk_step ?_ right)⟩
    exact Stage.step_outside middleOutside (by decide)
  | empty =>
    intro depth mode room outside
    exact ⟨mode, outside, rfl⟩
  | link expr tail first others =>
    intro depth mode room outside
    obtain ⟨middle, middleOutside, left⟩ := first depth mode room outside
    obtain ⟨last, lastOutside, right⟩ := others depth middle room middleOutside
    exact ⟨last, lastOutside, Stage.walk_trans left right⟩
  | once term inner =>
    intro depth mode room outside
    exact ⟨.term, .inr (.inl rfl), inner depth mode room outside⟩
  | repeated term repeats inner =>
    intro depth mode room outside
    refine ⟨.operator, .inr (.inr rfl), Stage.walk_trans (inner depth mode room outside) ?_⟩
    rw [Stage.walk_singleton]
    exact if_pos repeats
  | repeatedLazily term repeats inner =>
    intro depth mode room outside
    refine ⟨.start, .inl rfl, Stage.walk_trans (inner depth mode room outside) ?_⟩
    exact Stage.walk_step (if_pos repeats) rfl
  | atom isAtom =>
    intro depth mode room outside
    rw [Stage.walk_singleton]
    rcases isAtom with rfl | rfl | rfl <;> exact Stage.step_outside outside (by decide)
  | @group nesting kinds regex inner =>
    intro depth mode room outside
    have spare : HasRoom limit (depth + 1) nesting := by
      intro bound member
      have enough := room bound member
      omega
    have notFull : limit ≠ some depth := by
      intro full
      have enough := room depth full
      omega
    obtain ⟨last, lastOutside, walked⟩ := inner (depth + 1) .start spare (.inl rfl)
    have opens : (⟨depth, mode⟩ : Stage).step limit .leftParen = some ⟨depth + 1, .start⟩ := by
      rw [Stage.step_outside outside (by decide)]
      exact if_neg notFull
    have closes : (⟨depth + 1, last⟩ : Stage).walk limit [.rightParen] = some ⟨depth, .term⟩ := by
      rw [Stage.walk_singleton, Stage.step_outside lastOutside (by decide)]
      rfl
    exact Stage.walk_step opens (Stage.walk_trans walked closes)
  | charClass members inner =>
    intro depth mode room outside
    exact Stage.walk_charClass [] _ outside rfl (.inl rfl) inner
  | negatedClass members inner =>
    intro depth mode room outside
    exact Stage.walk_charClass [.caret] _ outside rfl (.inr rfl) inner
  | noMember => simp [Symbol.Leads]
  | literal others inner => exact List.forall_mem_cons.mpr ⟨.inl rfl, inner⟩
  | range others inner =>
    simp only [Symbol.Leads, List.forall_mem_cons]
    exact ⟨.inl rfl, .inr rfl, .inl rfl, inner⟩
  | minus others inner => exact List.forall_mem_cons.mpr ⟨.inr rfl, inner⟩

/-! ### Stages describe what was read -/

/-- Members may be in any order. -/
theorem derives_of_isMember (nesting : Nat) (kinds : List Kind)
    (allMembers : ∀ kind ∈ kinds, kind.IsMember) : Derives .members nesting kinds := by
  induction kinds with
  | nil => exact .noMember
  | cons kind others inductionHypothesis =>
    rw [List.forall_mem_cons] at allMembers
    have tail := inductionHypothesis allMembers.2
    rcases allMembers.1 with rfl | rfl
    · exact .literal tail
    · exact .minus tail

/-- A regex or a sequence may be continued by an expression. -/
theorem Derives.append_expr {symbol : Symbol} {nesting : Nat} {kinds : List Kind}
    (derivation : Derives symbol nesting kinds) (continues : symbol = .regex ∨ symbol = .sequence)
    {added : List Kind} (expr : Derives .expr nesting added) :
    Derives symbol nesting (kinds ++ added) := by
  induction derivation with
  | single sequence inner => exact .single (inner (.inr rfl) expr)
  | alternate sequence rest first others =>
    rw [List.append_assoc, List.cons_append]
    exact .alternate sequence (others (.inl rfl) expr)
  | empty =>
    rw [List.nil_append, ← List.append_nil added]
    exact .link expr .empty
  | link first tail onFirst onTail =>
    rw [List.append_assoc]
    exact .link first (onTail (.inr rfl) expr)
  | _ => simp at continues

/-- A regex may be continued by a `|`. -/
theorem Derives.append_pipe {symbol : Symbol} {nesting : Nat} {kinds : List Kind}
    (derivation : Derives symbol nesting kinds) (continues : symbol = .regex) :
    Derives .regex nesting (kinds ++ [.pipe]) := by
  induction derivation with
  | single sequence inner => exact .alternate sequence (.single .empty)
  | alternate sequence rest first others =>
    rw [List.append_assoc, List.cons_append]
    exact .alternate sequence (others rfl)
  | _ => simp at continues

/-- What is derivable stays so when more groups may be nested. -/
theorem Derives.relax {symbol : Symbol} {nesting : Nat} {kinds : List Kind}
    (derivation : Derives symbol nesting kinds) : Derives symbol (nesting + 1) kinds := by
  induction derivation with
  | single sequence inner => exact .single inner
  | alternate sequence rest first others => exact .alternate first others
  | empty => exact .empty
  | link expr tail first others => exact .link first others
  | once term inner => exact .once inner
  | repeated term repeats inner => exact .repeated inner repeats
  | repeatedLazily term repeats inner => exact .repeatedLazily inner repeats
  | atom isAtom => exact .atom isAtom
  | group regex inner => exact .group inner
  | charClass members inner => exact .charClass inner
  | negatedClass members inner => exact .negatedClass inner
  | noMember => exact .noMember
  | literal others inner => exact .literal inner
  | range others inner => exact .range inner
  | minus others inner => exact .minus inner

/-- The kinds are a regex with `depth` groups open behind it, each of them holding a
regex so far. In the innermost one `spare` groups may be nested. -/
inductive Opens : Nat → Nat → List Kind → Prop where
  | outermost {spare : Nat} {kinds : List Kind} (regex : Derives .regex spare kinds) :
      Opens 0 spare kinds
  | within {depth spare : Nat} {outer kinds : List Kind} (around : Opens depth (spare + 1) outer)
      (regex : Derives .regex spare kinds) : Opens (depth + 1) spare (outer ++ .leftParen :: kinds)

namespace Opens

variable {depth spare : Nat} {kinds : List Kind}

/-- What the innermost group holds may be replaced by what continues it. -/
theorem extend {added : List Kind} (opened : Opens depth spare kinds)
    (continues : ∀ inner, Derives .regex spare inner → Derives .regex spare (inner ++ added)) :
    Opens depth spare (kinds ++ added) := by
  cases opened with
  | outermost regex => exact .outermost (continues _ regex)
  | within around regex =>
    rw [List.append_assoc, List.cons_append]
    exact .within around (continues _ regex)

/-- An expression continues the innermost group. -/
theorem append_expr {added : List Kind} (opened : Opens depth spare kinds)
    (expr : Derives .expr spare added) : Opens depth spare (kinds ++ added) :=
  opened.extend fun _ regex => regex.append_expr (.inl rfl) expr

/-- A `|` continues the innermost group. -/
theorem append_pipe (opened : Opens depth spare kinds) : Opens depth spare (kinds ++ [.pipe]) :=
  opened.extend fun _ regex => regex.append_pipe rfl

/-- A parenthesis opens one more group. -/
theorem enter (opened : Opens depth (spare + 1) kinds) :
    Opens (depth + 1) spare (kinds ++ [.leftParen]) :=
  .within opened (.single .empty)

/-- A parenthesis makes the innermost group a term of the one around it. -/
theorem leave (opened : Opens (depth + 1) spare kinds) :
    ∃ outer group, kinds ++ [.rightParen] = outer ++ group ∧ Opens depth (spare + 1) outer ∧
      Derives .term (spare + 1) group := by
  cases opened with
  | within around regex => exact ⟨_, _, by simp, around, .group regex⟩

/-- More groups may be nested. -/
theorem relax (opened : Opens depth spare kinds) : Opens depth (spare + 1) kinds := by
  induction opened with
  | outermost regex => exact .outermost regex.relax
  | within around regex onAround => exact .within onAround regex.relax

/-- Closing all groups gives a regex. -/
theorem derives (opened : Opens depth spare kinds) :
    Derives .regex (depth + spare) (kinds ++ List.replicate depth .rightParen) := by
  induction depth generalizing spare kinds with
  | zero =>
    cases opened with
    | outermost regex => simpa using regex
  | succ depth inductionHypothesis =>
    obtain ⟨outer, group, split, around, term⟩ := opened.leave
    have closed := inductionHypothesis (around.append_expr (.once term))
    rw [← split, List.append_assoc, List.singleton_append, ← List.replicate_succ] at closed
    rwa [Nat.add_right_comm, Nat.add_assoc]

/-- Kinds with open groups behind a regex are viable. -/
theorem viable (opened : Opens depth spare kinds) : Viable (depth + spare) kinds :=
  ⟨_, opened.derives, (List.prefix_append _ _).trans (List.prefix_append _ _)⟩

end Opens

/-- What was read to get to a stage at which `spare` groups may be nested. -/
inductive Stage.Describes : Stage → Nat → List Kind → Prop where
  | start {depth spare : Nat} {kinds : List Kind} (opened : Opens depth spare kinds) :
      Describes ⟨depth, .start⟩ spare kinds
  | term {depth spare : Nat} {outer kinds : List Kind} (opened : Opens depth spare outer)
      (term : Derives .term spare kinds) : Describes ⟨depth, .term⟩ spare (outer ++ kinds)
  | operator {depth spare : Nat} {outer kinds : List Kind} {operator : Kind}
      (opened : Opens depth spare outer) (term : Derives .term spare kinds)
      (repeats : operator.IsOperator) :
      Describes ⟨depth, .operator⟩ spare (outer ++ (kinds ++ [operator]))
  | bracket {depth spare : Nat} {outer : List Kind} (opened : Opens depth spare outer) :
      Describes ⟨depth, .bracket⟩ spare (outer ++ [.leftBracket])
  | member {depth spare : Nat} {outer caret kinds : List Kind} (opened : Opens depth spare outer)
      (negates : caret = [] ∨ caret = [.caret]) (allMembers : ∀ kind ∈ kinds, kind.IsMember) :
      Describes ⟨depth, .member⟩ spare (outer ++ .leftBracket :: (caret ++ kinds))
  | finished {spare : Nat} {kinds : List Kind} (regex : Derives .regex spare kinds) :
      Describes ⟨0, .finished⟩ spare (kinds ++ [.endOfInput])

namespace Stage.Describes

variable {limit spare : Nat} {stage next : Stage} {kinds : List Kind} {kind : Kind}

/-- Outside brackets only groups are open. -/
theorem opens (described : stage.Describes spare kinds) (outside : stage.mode.IsOutside) :
    Opens stage.depth spare kinds := by
  cases described with
  | start opened => exact opened
  | term opened term => exact opened.append_expr (.once term)
  | operator opened term repeats => exact opened.append_expr (.repeated term repeats)
  | bracket opened => simp [Mode.IsOutside] at outside
  | member opened negates allMembers => simp [Mode.IsOutside] at outside
  | finished regex => simp [Mode.IsOutside] at outside

/-- Between brackets a class is open. -/
theorem opens_class (described : stage.Describes spare kinds) (inside : stage.mode.IsInside) :
    ∃ outer caret members, kinds = outer ++ .leftBracket :: (caret ++ members) ∧
      Opens stage.depth spare outer ∧ (caret = [] ∨ caret = [.caret]) ∧
      ∀ kind ∈ members, kind.IsMember := by
  cases described with
  | bracket opened => exact ⟨_, [], [], rfl, opened, .inl rfl, by simp⟩
  | member opened negates allMembers => exact ⟨_, _, _, rfl, opened, negates, allMembers⟩
  | start opened => simp [Mode.IsInside] at inside
  | term opened term => simp [Mode.IsInside] at inside
  | operator opened term repeats => simp [Mode.IsInside] at inside
  | finished regex => simp [Mode.IsInside] at inside

/-- What a kind outside brackets leads to, if it quantifies nothing. -/
theorem of_outsideStep {depth : Nat} (opened : Opens depth spare kinds)
    (stepped : outsideStep (some (depth + spare)) depth kind = some next) :
    ∃ room, depth + spare = next.depth + room ∧ next.Describes room (kinds ++ [kind]) := by
  cases kind with
  | literal | dot | escape =>
    obtain rfl := Option.some.inj stepped
    exact ⟨spare, rfl, .term opened (.atom (by simp [Kind.IsAtom]))⟩
  | leftBracket =>
    obtain rfl := Option.some.inj stepped
    exact ⟨spare, rfl, .bracket opened⟩
  | pipe =>
    obtain rfl := Option.some.inj stepped
    exact ⟨spare, rfl, .start opened.append_pipe⟩
  | leftParen =>
    cases spare with
    | zero => simp [outsideStep] at stepped
    | succ spare =>
      obtain rfl : (⟨depth + 1, .start⟩ : Stage) = next := by
        simpa [outsideStep] using stepped
      exact ⟨spare, by dsimp only; omega, .start opened.enter⟩
  | rightParen =>
    cases depth with
    | zero => simp [outsideStep] at stepped
    | succ depth =>
      obtain rfl : (⟨depth, .term⟩ : Stage) = next := by
        simpa [outsideStep] using stepped
      obtain ⟨outer, group, split, around, term⟩ := opened.leave
      rw [split]
      exact ⟨spare + 1, by dsimp only; omega, .term around term⟩
  | endOfInput =>
    cases opened with
    | outermost regex =>
      obtain rfl : (⟨0, .finished⟩ : Stage) = next := by
        simpa [outsideStep] using stepped
      exact ⟨spare, rfl, .finished regex⟩
    | within around regex => simp [outsideStep] at stepped
  | rightBracket | plus | minus | star | question | caret =>
    simp [outsideStep] at stepped

/-- A class that is closed is a term. -/
theorem term_of_class {caret members : List Kind} (negates : caret = [] ∨ caret = [.caret])
    (allMembers : ∀ kind ∈ members, kind.IsMember) :
    Derives .term spare (.leftBracket :: (caret ++ (members ++ [.rightBracket]))) := by
  rcases negates with rfl | rfl
  · exact .charClass (derives_of_isMember _ _ allMembers)
  · exact .negatedClass (derives_of_isMember _ _ allMembers)

/-- What a kind between brackets leads to, if it negates nothing. -/
theorem of_insideStep (described : stage.Describes spare kinds) (inside : stage.mode.IsInside)
    (stepped : insideStep stage.depth kind = some next) :
    next.depth = stage.depth ∧ next.Describes spare (kinds ++ [kind]) := by
  obtain ⟨outer, caret, members, rfl, opened, negates, allMembers⟩ := described.opens_class inside
  have extended (member : kind.IsMember) :
      (⟨stage.depth, .member⟩ : Stage).Describes spare
        (outer ++ .leftBracket :: (caret ++ members) ++ [kind]) := by
    rw [List.append_assoc, List.cons_append, List.append_assoc]
    refine .member opened negates ?_
    simpa [or_imp, forall_and] using ⟨allMembers, member⟩
  cases kind with
  | literal =>
    obtain rfl := Option.some.inj stepped
    exact ⟨rfl, extended (.inl rfl)⟩
  | minus =>
    obtain rfl := Option.some.inj stepped
    exact ⟨rfl, extended (.inr rfl)⟩
  | rightBracket =>
    obtain rfl := Option.some.inj stepped
    rw [List.append_assoc, List.cons_append, List.append_assoc]
    exact ⟨rfl, .term opened (term_of_class negates allMembers)⟩
  | dot | escape | leftBracket | pipe | leftParen | rightParen | endOfInput | plus | star
  | question | caret => simp [insideStep] at stepped

/-- What a step leads to is described by what was read and the kind. -/
theorem step (described : stage.Describes spare kinds)
    (stepped : stage.step (some (stage.depth + spare)) kind = some next) :
    ∃ room, stage.depth + spare = next.depth + room ∧ next.Describes room (kinds ++ [kind]) := by
  have inBrackets (inside : stage.mode.IsInside)
      (stepped : insideStep stage.depth kind = some next) :
      ∃ room, stage.depth + spare = next.depth + room ∧ next.Describes room (kinds ++ [kind]) := by
    obtain ⟨same, extended⟩ := described.of_insideStep inside stepped
    exact ⟨spare, by rw [same], extended⟩
  cases described with
  | start opened => exact of_outsideStep opened stepped
  | term opened term =>
    by_cases repeats : kind.IsOperator
    · obtain rfl := Option.some.inj ((if_pos repeats).symm.trans stepped)
      rw [List.append_assoc]
      exact ⟨spare, rfl, .operator opened term repeats⟩
    · exact of_outsideStep (opened.append_expr (.once term)) ((if_neg repeats).symm.trans stepped)
  | operator opened term repeats =>
    by_cases mark : kind = .question
    · obtain rfl := Option.some.inj ((if_pos mark).symm.trans stepped)
      subst mark
      rw [List.append_assoc, List.append_assoc]
      exact ⟨spare, rfl, .start (opened.append_expr (.repeatedLazily term repeats))⟩
    · exact of_outsideStep (opened.append_expr (.repeated term repeats))
        ((if_neg mark).symm.trans stepped)
  | bracket opened =>
    by_cases negates : kind = .caret
    · obtain rfl := Option.some.inj ((if_pos negates).symm.trans stepped)
      subst negates
      rw [List.append_assoc]
      exact ⟨spare, rfl, @member _ _ _ [.caret] [] opened (.inr rfl) (by simp)⟩
    · exact inBrackets (.inl rfl) ((if_neg negates).symm.trans stepped)
  | member opened negates allMembers => exact inBrackets (.inr rfl) stepped
  | finished regex => simp [Stage.step] at stepped

/-- What a walk leads to is described by what was read before and on the way. -/
theorem walk {added : List Kind} (described : stage.Describes spare kinds)
    (walked : stage.walk (some (stage.depth + spare)) added = some next) :
    ∃ room, stage.depth + spare = next.depth + room ∧ next.Describes room (kinds ++ added) := by
  induction added generalizing stage spare kinds with
  | nil =>
    obtain rfl := Option.some.inj walked
    exact ⟨spare, rfl, by simpa using described⟩
  | cons kind others inductionHypothesis =>
    rw [walk_cons] at walked
    obtain ⟨middle, stepped, continued⟩ := Option.bind_eq_some_iff.mp walked
    obtain ⟨room, same, extended⟩ := described.step stepped
    rw [same] at continued
    obtain ⟨last, total, final⟩ := inductionHypothesis extended continued
    refine ⟨last, same.trans total, ?_⟩
    rwa [List.append_assoc, List.singleton_append] at final

/-- What a stage describes is viable. -/
theorem viable (described : stage.Describes spare kinds) : Viable (stage.depth + spare) kinds := by
  have inBrackets (inside : stage.mode.IsInside) : Viable (stage.depth + spare) kinds := by
    obtain ⟨outer, caret, members, rfl, opened, negates, allMembers⟩ := described.opens_class inside
    have closed := opened.append_expr (.once (term_of_class negates allMembers))
    refine closed.viable.of_isPrefix ?_
    rw [List.prefix_append_right_inj]
    exact ⟨[.rightBracket], by simp⟩
  cases described with
  | start opened => exact opened.viable
  | term opened term => exact (opened.append_expr (.once term)).viable
  | operator opened term repeats => exact (opened.append_expr (.repeated term repeats)).viable
  | bracket opened => exact inBrackets (.inl rfl)
  | member opened negates allMembers => exact inBrackets (.inr rfl)
  | finished regex => exact ⟨_, by rwa [Nat.zero_add], List.prefix_refl _⟩

end Stage.Describes

/-- Nothing was read yet. -/
theorem Stage.describes_initial (spare : Nat) : Stage.initial.Describes spare [] :=
  .start (.outermost (.single .empty))

/-- Kinds are viable if and only if the automaton gets through them. -/
theorem viable_iff_walk (nesting : Nat) (kinds : List Kind) :
    Viable nesting kinds ↔ ∃ reached, Stage.initial.walk (some nesting) kinds = some reached := by
  constructor
  · rintro ⟨whole, derivation, begins⟩
    have room : HasRoom (some nesting) 0 nesting := by
      intro bound member
      obtain rfl := Option.some.inj member
      exact Nat.le_of_eq (Nat.zero_add nesting)
    obtain ⟨last, outside, walked⟩ := derivation.leads 0 .start room (.inl rfl)
    have ended : (⟨0, last⟩ : Stage).walk (some nesting) [.endOfInput] = some ⟨0, .finished⟩ := by
      rw [Stage.walk_singleton]
      exact Stage.step_outside outside (by decide)
    exact Stage.walk_of_isPrefix begins (Stage.walk_trans walked ended)
  · rintro ⟨reached, walked⟩
    rw [← Nat.zero_add nesting] at walked
    obtain ⟨room, total, described⟩ := (Stage.describes_initial nesting).walk walked
    have viable := described.viable
    rwa [← total, List.nil_append, Stage.initial, Nat.zero_add] at viable

/-! ### Open groups -/

/-- A derivable list closes every group that it opens. -/
theorem Derives.balanced {symbol : Symbol} {nesting : Nat} {kinds : List Kind}
    (derivation : Derives symbol nesting kinds) :
    kinds.count .leftParen = kinds.count .rightParen := by
  induction derivation with
  | single sequence inner => exact inner
  | alternate sequence rest first others => simp [first, others]
  | empty => rfl
  | link expr tail first others => simp [first, others]
  | once term inner => exact inner
  | repeated term repeats inner => rcases repeats with rfl | rfl | rfl <;> simp [inner]
  | repeatedLazily term repeats inner => rcases repeats with rfl | rfl | rfl <;> simp [inner]
  | atom isAtom => rcases isAtom with rfl | rfl | rfl <;> rfl
  | group regex inner => simp [inner]
  | charClass members inner => simp [inner]
  | negatedClass members inner => simp [inner]
  | noMember => rfl
  | literal others inner => simp [inner]
  | range others inner => simp [inner]
  | minus others inner => simp [inner]

/-- The depth is the number of groups that are opened and not closed. -/
theorem Opens.count_eq {depth spare : Nat} {kinds : List Kind} (opened : Opens depth spare kinds) :
    kinds.count .leftParen = kinds.count .rightParen + depth := by
  induction opened with
  | outermost regex => exact regex.balanced
  | within around regex onAround =>
    have inner := regex.balanced
    simp only [List.count_append, List.count_cons_self, List.count_cons_of_ne, ne_eq,
      reduceCtorEq, not_false_eq_true]
    omega

end RegexCompiler
