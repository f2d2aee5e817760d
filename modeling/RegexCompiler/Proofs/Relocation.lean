import RegexCompiler.Parser
import RegexCompiler.Proofs.ControlFlow

/-!
# The code of a subtree

The code of a subtree stands in the program of the tree as one stretch. It is the code
the subtree has on its own, with its branches moved to where the stretch begins and its
slots moved past those of the groups opened earlier. Control enters the stretch only at
its first instruction and leaves it only to the one right after it.

Two facts carry this. Slots enter the layout in one place, so taking more slots at the
start renames all of them alike. And a construct keeps its own branches away from the
inside of its parts: each lands at the front of a part, or beyond its end. The second
fact passes from a part to the parts of the part, so it reaches every node of the tree.

Nodes are listed in the order of their first tokens, a node before its parts. The groups
opened before a node are those that come before it in this list.
-/

namespace RegexCompiler

/-! ### Renamed slots -/

/-- Replace the slot an instruction records. -/
def Inst.mapSlots {τ : Type} (f : Nat → Nat) : Inst τ → Inst τ
  | .save slot => .save (f slot)
  | inst => inst

/-- An instruction moved by `start` instructions and past `slots` slots. -/
def Inst.relocate (start slots : Nat) (inst : Inst Nat) : Inst Nat :=
  (inst.mapTargets (· + start)).mapSlots (· + slots)

/-- Renaming slots leaves the branches as they are. -/
theorem Quantifier.layout_mapSlots (quantifier : Quantifier) (f : Nat → Nat) (body : Block) :
    quantifier.layout (body.map (Inst.mapSlots f)) =
      (quantifier.layout body).map (Inst.mapSlots f) := by
  have split (first second : Int) :
      (quantifier.split first second).mapSlots f = quantifier.split first second := by
    rcases quantifier.split_cases first second with same | same <;> rw [same] <;> rfl
  have jump (distance : Int) : (Inst.jump distance).mapSlots f = .jump distance := rfl
  simp only [layout, List.length_map]
  cases quantifier.repetition <;> simp [split, jump]

/-- The code around alternatives records no slots. -/
theorem alternateLayout_mapSlots (f : Nat → Nat) (branch later : Block) :
    alternateLayout (branch.map (Inst.mapSlots f)) (later.map (Inst.mapSlots f)) =
      (alternateLayout branch later).map (Inst.mapSlots f) := by
  simp [alternateLayout, Inst.mapSlots]

mutual

/-- Taking more slots beforehand moves every slot of a regex. -/
theorem Regex.layout_add (regex : Regex) (slots extra : Nat) :
    regex.layout (slots + extra) = (regex.layout slots).map (Inst.mapSlots (· + extra)) := by
  cases regex with
  | single sequence => exact sequence.layout_add slots extra
  | alternate sequence pipe rest =>
    rw [Regex.layout, Regex.layout, ← alternateLayout_mapSlots, sequence.layout_add,
      Nat.add_right_comm, rest.layout_add]

/-- Taking more slots beforehand moves every slot of a sequence. -/
theorem Sequence.layout_add (sequence : Sequence) (slots extra : Nat) :
    sequence.layout (slots + extra) =
      (sequence.layout slots).map (Inst.mapSlots (· + extra)) := by
  cases sequence with
  | empty => rfl
  | last expr => exact expr.layout_add slots extra
  | link expr tail =>
    rw [Sequence.layout, Sequence.layout, List.map_append, expr.layout_add,
      Nat.add_right_comm, tail.layout_add]

/-- Taking more slots beforehand moves every slot of an expression. -/
theorem Expr.layout_add (expr : Expr) (slots extra : Nat) :
    expr.layout (slots + extra) = (expr.layout slots).map (Inst.mapSlots (· + extra)) := by
  cases expr with
  | mk term quantifier =>
    cases quantifier with
    | none => exact term.layout_add slots extra
    | some quantifier =>
      rw [Expr.layout, Expr.layout, ← quantifier.layout_mapSlots, term.layout_add]

/-- Taking more slots beforehand moves every slot of a term. -/
theorem Term.layout_add (term : Term) (slots extra : Nat) :
    term.layout (slots + extra) = (term.layout slots).map (Inst.mapSlots (· + extra)) := by
  cases term with
  | atom token =>
    rw [Term.layout, Term.layout, atomInst]
    cases token.kind <;> rfl
  | group opening regex closing =>
    have body := regex.layout_add (slots + 2) extra
    rw [Nat.add_right_comm] at body
    simp [Term.layout, body, Inst.mapSlots, Nat.add_right_comm]
  | charClass opening negation members closing => cases negation <;> rfl

end

/-! ### Parts that are entered at the front -/

namespace Block

/-- Of the stretch of `extent` instructions from `base` on, the branches of code that
begins at `start` reach at most the front. -/
def Avoids (base extent start : Nat) (code : Block) : Prop :=
  ∀ (offset : Nat) (inst : Inst Int), code[offset]? = some inst → ∀ distance ∈ inst.targets,
    (start : Int) + offset + distance ≤ base ∨
      (base : Int) + extent ≤ (start : Int) + offset + distance

theorem avoids_nil (base extent start : Nat) : Avoids base extent start [] := by
  intro offset inst found
  simp at found

/-- Code avoids a stretch if its first instruction does and the rest after it. -/
theorem avoids_cons {base extent start : Nat} {inst : Inst Int} {code : Block}
    (first : ∀ distance ∈ inst.targets,
      (start : Int) + distance ≤ base ∨ (base : Int) + extent ≤ (start : Int) + distance)
    (others : Avoids base extent (start + 1) code) : Avoids base extent start (inst :: code) := by
  intro offset other found distance member
  cases offset with
  | zero =>
    obtain rfl : inst = other := Option.some.inj found
    have lands := first distance member
    omega
  | succ offset =>
    have lands := others offset other found distance member
    omega

/-- Code that begins with a jump avoids a stretch if the jump lands beside it. -/
theorem avoids_jump {base extent start : Nat} {distance : Int} {code : Block}
    (lands : (start : Int) + distance ≤ base ∨ (base : Int) + extent ≤ (start : Int) + distance)
    (others : Avoids base extent (start + 1) code) :
    Avoids base extent start (.jump distance :: code) := by
  refine avoids_cons ?_ others
  intro found member
  obtain rfl := List.mem_singleton.mp member
  exact lands

/-- Code that begins with a split avoids a stretch if both its branches land beside it. -/
theorem avoids_split {base extent start : Nat} {left right : Int} {inst : Inst Int} {code : Block}
    (shape : inst = .split left right ∨ inst = .split right left)
    (onLeft : (start : Int) + left ≤ base ∨ (base : Int) + extent ≤ (start : Int) + left)
    (onRight : (start : Int) + right ≤ base ∨ (base : Int) + extent ≤ (start : Int) + right)
    (others : Avoids base extent (start + 1) code) : Avoids base extent start (inst :: code) := by
  refine avoids_cons ?_ others
  intro distance member
  have either : distance = left ∨ distance = right := by
    rcases shape with rfl | rfl <;> simpa [Inst.targets, or_comm] using member
  rcases either with rfl | rfl
  · exact onLeft
  · exact onRight

/-- Code in a row avoids a stretch if each piece does where it begins. -/
theorem avoids_append {base extent start : Nat} {left right : Block}
    (first : Avoids base extent start left)
    (second : Avoids base extent (start + left.length) right) :
    Avoids base extent start (left ++ right) := by
  intro offset inst found distance member
  by_cases early : offset < left.length
  · rw [List.getElem?_append_left early] at found
    exact first offset inst found distance member
  · rw [List.getElem?_append_right (by omega)] at found
    have lands := second (offset - left.length) inst found distance member
    omega

/-- Closed code avoids every stretch beside it. -/
theorem Closed.avoids {code : Block} (closed : Closed code) {base extent start : Nat}
    (beside : start + code.length ≤ base ∨ base + extent ≤ start) :
    Avoids base extent start code := by
  intro offset inst found distance member
  have bounds := (closed offset inst found).inside distance member
  omega

/-- Code that avoids a stretch avoids what lies within it. -/
theorem Avoids.within {base extent start inner size : Nat} {code : Block}
    (avoids : Avoids base extent start code) (above : base ≤ inner)
    (below : inner + size ≤ base + extent) : Avoids inner size start code := by
  intro offset inst found distance member
  have lands := avoids offset inst found distance member
  omega

/-- What code avoids moves with the code. -/
theorem Avoids.moved {base extent start : Nat} {code : Block}
    (avoids : Avoids base extent start code) (steps : Nat) :
    Avoids (steps + base) extent (steps + start) code := by
  intro offset inst found distance member
  have lands := avoids offset inst found distance member
  omega

/-- A part of a block that the rest of the block enters only at the front. -/
def Contains (whole part : Block) : Prop :=
  ∃ before after, whole = before ++ (part ++ after) ∧
    Avoids before.length part.length 0 before ∧
    Avoids before.length part.length (before.length + part.length) after

theorem contains_self (block : Block) : Contains block block :=
  ⟨[], [], by simp, avoids_nil _ _ _, avoids_nil _ _ _⟩

/-- A part of a part is a part. -/
theorem Contains.trans {whole middle part : Block} (outer : Contains whole middle)
    (inner : Contains middle part) : Contains whole part := by
  obtain ⟨before, after, rfl, frontOuter, backOuter⟩ := outer
  obtain ⟨left, right, rfl, frontInner, backInner⟩ := inner
  simp only [List.length_append] at frontOuter backOuter
  -- from outside the middle part one gets to its front at most, and no further into it
  refine ⟨before ++ left, right ++ after, by simp, ?_, ?_⟩
  · rw [List.length_append]
    refine avoids_append (frontOuter.within (by omega) (by omega)) ?_
    have moved := frontInner.moved before.length
    rwa [Nat.add_comm before.length 0] at moved
  · rw [List.length_append]
    refine avoids_append ?_ ?_
    · have moved := backInner.moved before.length
      rwa [← Nat.add_assoc] at moved
    · have outside : Avoids (before.length + left.length) part.length _ after :=
        backOuter.within (by omega) (by omega)
      rwa [show before.length + (left.length + (part.length + right.length)) =
        before.length + left.length + part.length + right.length by omega] at outside

/-- Closed code before and after a block does not reach into it. -/
theorem contains_between {before part after : Block} (front : Closed before)
    (back : Closed after) : Contains (before ++ (part ++ after)) part :=
  ⟨before, after, rfl, front.avoids (.inl (by omega)), back.avoids (.inr (by omega))⟩

end Block

/-- A repetition enters its body at the front and leaves it at the end. -/
theorem Quantifier.layout_contains (quantifier : Quantifier) (body : Block) :
    Block.Contains (quantifier.layout body) body := by
  rw [Quantifier.layout]
  cases quantifier.repetition with
  | zeroOrMore =>
    refine ⟨[quantifier.split 1 (body.length + 2)], [.jump (-(body.length + 1))], rfl,
      Block.avoids_split (quantifier.split_cases _ _) ?_ ?_ (Block.avoids_nil _ _ _),
      Block.avoids_jump ?_ (Block.avoids_nil _ _ _)⟩ <;>
      simp only [List.length_singleton] <;> omega
  | oneOrMore =>
    refine ⟨[], [quantifier.split (-body.length) 1], rfl, Block.avoids_nil _ _ _,
      Block.avoids_split (quantifier.split_cases _ _) ?_ ?_ (Block.avoids_nil _ _ _)⟩ <;>
      simp only [List.length_nil] <;> omega
  | zeroOrOne =>
    refine ⟨[quantifier.split 1 (body.length + 1)], [], by simp,
      Block.avoids_split (quantifier.split_cases _ _) ?_ ?_ (Block.avoids_nil _ _ _),
      Block.avoids_nil _ _ _⟩ <;>
      simp only [List.length_singleton] <;> omega

/-- The first alternative is entered at its front. -/
theorem alternateLayout_contains_branch (branch later : Block) (closed : Block.Closed later) :
    Block.Contains (alternateLayout branch later) branch := by
  refine ⟨[.split 1 (branch.length + 2)], .jump (later.length + 1) :: later, rfl,
    Block.avoids_split (.inl rfl) ?_ ?_ (Block.avoids_nil _ _ _),
    Block.avoids_jump ?_ (closed.avoids (.inr (by omega)))⟩ <;>
    simp only [List.length_singleton] <;> omega

/-- The alternatives after the first are entered at their front. -/
theorem alternateLayout_contains_later (branch later : Block) (closed : Block.Closed branch) :
    Block.Contains (alternateLayout branch later) later := by
  refine ⟨.split 1 (branch.length + 2) :: (branch ++ [.jump (later.length + 1)]), [],
    by simp [alternateLayout], Block.avoids_split (.inl rfl) ?_ ?_ (Block.avoids_append
      (closed.avoids (.inl ?_)) (Block.avoids_jump ?_ (Block.avoids_nil _ _ _))),
    Block.avoids_nil _ _ _⟩ <;>
    simp only [List.length_cons, List.length_append, List.length_nil] <;> omega

/-! ### Nodes of a tree -/

/-- A node of a tree with all that is below it. -/
inductive Subtree where
  | regex (tree : Regex)
  | sequence (tree : Sequence)
  | expr (tree : Expr)
  | term (tree : Term)

namespace Subtree

/-- Compile a subtree with `slots` slots already taken. -/
def emit (slots : Nat) : Subtree → Emitted
  | .regex tree => tree.emit slots
  | .sequence tree => tree.emit slots
  | .expr tree => tree.emit slots
  | .term tree => tree.emit slots

/-- The program of a subtree on its own. -/
def program (part : Subtree) : Program :=
  let emitted := part.emit 0
  emitted.code.resolve emitted.slots

/-- Whether a subtree opens a group at its root. -/
def isGroup : Subtree → Bool
  | .term (.group _ _ _) => true
  | _ => false

/-- The block of a subtree with `slots` slots already taken. -/
def layout (slots : Nat) : Subtree → Block
  | .regex tree => tree.layout slots
  | .sequence tree => tree.layout slots
  | .expr tree => tree.layout slots
  | .term tree => tree.layout slots

/-- Compiling a subtree yields its block. -/
theorem emit_code (part : Subtree) (slots : Nat) :
    (part.emit slots).code = .ofBlock (part.layout slots) := by
  cases part with
  | regex tree => simp [emit, layout, tree.emit_eq]
  | sequence tree =>
    simp [emit, layout, Sequence.emit, Fragment.empty_eq_ofBlock, tree.emitAfter_eq]
  | expr tree => simp [emit, layout, tree.emit_eq]
  | term tree => simp [emit, layout, tree.emit_eq]

/-- The block of a subtree is closed. -/
theorem layout_closed (part : Subtree) (slots : Nat) : Block.Closed (part.layout slots) := by
  cases part with
  | regex tree => exact tree.layout_closed slots
  | sequence tree => exact tree.layout_closed slots
  | expr tree => exact tree.layout_closed slots
  | term tree => exact tree.layout_closed slots

/-- Taking more slots beforehand moves every slot of a subtree. -/
theorem layout_add (part : Subtree) (slots extra : Nat) :
    part.layout (slots + extra) = (part.layout slots).map (Inst.mapSlots (· + extra)) := by
  cases part with
  | regex tree => exact tree.layout_add slots extra
  | sequence tree => exact tree.layout_add slots extra
  | expr tree => exact tree.layout_add slots extra
  | term tree => exact tree.layout_add slots extra

end Subtree

mutual

/-- The nodes of a regex, each before its parts and these from left to right. -/
def Regex.preorder : Regex → List Subtree
  | .single sequence => .regex (.single sequence) :: sequence.preorder
  | .alternate sequence pipe rest =>
    .regex (.alternate sequence pipe rest) :: (sequence.preorder ++ rest.preorder)

/-- The nodes of a sequence, each before its parts and these from left to right. -/
def Sequence.preorder : Sequence → List Subtree
  | .empty => [.sequence .empty]
  | .last expr => .sequence (.last expr) :: expr.preorder
  | .link expr tail => .sequence (.link expr tail) :: (expr.preorder ++ tail.preorder)

/-- The nodes of an expression, each before its parts and these from left to right. -/
def Expr.preorder : Expr → List Subtree
  | .mk term quantifier => .expr (.mk term quantifier) :: term.preorder

/-- The nodes of a term, each before its parts and these from left to right. -/
def Term.preorder : Term → List Subtree
  | .atom token => [.term (.atom token)]
  | .group opening regex closing => .term (.group opening regex closing) :: regex.preorder
  | .charClass opening negation members closing =>
    [.term (.charClass opening negation members closing)]

end

/-- The property passes from a node to the nodes right below it. -/
structure Subtree.Inherited (holds : Subtree → Prop) : Prop where
  single : ∀ {sequence}, holds (.regex (.single sequence)) → holds (.sequence sequence)
  alternate : ∀ {sequence pipe rest}, holds (.regex (.alternate sequence pipe rest)) →
    holds (.sequence sequence) ∧ holds (.regex rest)
  last : ∀ {expr}, holds (.sequence (.last expr)) → holds (.expr expr)
  link : ∀ {expr tail}, holds (.sequence (.link expr tail)) →
    holds (.expr expr) ∧ holds (.sequence tail)
  term : ∀ {term quantifier}, holds (.expr (.mk term quantifier)) → holds (.term term)
  group : ∀ {opening regex closing}, holds (.term (.group opening regex closing)) →
    holds (.regex regex)

namespace Subtree.Inherited

variable {holds : Subtree → Prop}

mutual

/-- What a regex passes on holds of all its nodes. -/
theorem regex_nodes (inherited : Inherited holds) (tree : Regex) (root : holds (.regex tree)) :
    ∀ node ∈ tree.preorder, holds node := by
  cases tree with
  | single sequence =>
    exact List.forall_mem_cons.mpr ⟨root, inherited.sequence_nodes sequence (inherited.single root)⟩
  | alternate sequence pipe rest =>
    obtain ⟨first, later⟩ := inherited.alternate root
    exact List.forall_mem_cons.mpr ⟨root, List.forall_mem_append.mpr
      ⟨inherited.sequence_nodes sequence first, inherited.regex_nodes rest later⟩⟩

/-- What a sequence passes on holds of all its nodes. -/
theorem sequence_nodes (inherited : Inherited holds) (tree : Sequence)
    (root : holds (.sequence tree)) : ∀ node ∈ tree.preorder, holds node := by
  cases tree with
  | empty => exact List.forall_mem_singleton.mpr root
  | last expr =>
    exact List.forall_mem_cons.mpr ⟨root, inherited.expr_nodes expr (inherited.last root)⟩
  | link expr tail =>
    obtain ⟨first, later⟩ := inherited.link root
    exact List.forall_mem_cons.mpr ⟨root, List.forall_mem_append.mpr
      ⟨inherited.expr_nodes expr first, inherited.sequence_nodes tail later⟩⟩

/-- What an expression passes on holds of all its nodes. -/
theorem expr_nodes (inherited : Inherited holds) (tree : Expr) (root : holds (.expr tree)) :
    ∀ node ∈ tree.preorder, holds node := by
  cases tree with
  | mk inner quantifier =>
    exact List.forall_mem_cons.mpr ⟨root, inherited.term_nodes inner (inherited.term root)⟩

/-- What a term passes on holds of all its nodes. -/
theorem term_nodes (inherited : Inherited holds) (tree : Term) (root : holds (.term tree)) :
    ∀ node ∈ tree.preorder, holds node := by
  cases tree with
  | atom token => exact List.forall_mem_singleton.mpr root
  | group opening regex closing =>
    exact List.forall_mem_cons.mpr ⟨root, inherited.regex_nodes regex (inherited.group root)⟩
  | charClass opening negation members closing => exact List.forall_mem_singleton.mpr root

end

end Subtree.Inherited

/-- Number of groups among the nodes before a position. -/
def openedBefore (nodes : List Subtree) (position : Nat) : Nat :=
  (nodes.take position).countP Subtree.isGroup

/-- A node stands in a list with `opened` groups before it. -/
def Listed (nodes : List Subtree) (opened : Nat) (part : Subtree) : Prop :=
  ∃ position, nodes[position]? = some part ∧ openedBefore nodes position = opened

/-- A node is the first of a list or stands in the rest, with the first before it. -/
theorem Listed.cons_cases {first part : Subtree} {others : List Subtree} {opened : Nat}
    (listed : Listed (first :: others) opened part) :
    (part = first ∧ opened = 0) ∨
      ∃ later, Listed others later part ∧ opened = (if first.isGroup then 1 else 0) + later := by
  obtain ⟨position, found, rfl⟩ := listed
  cases position with
  | zero => exact .inl ⟨(Option.some.inj found).symm, rfl⟩
  | succ position =>
    refine .inr ⟨_, ⟨position, found, rfl⟩, ?_⟩
    simp [openedBefore, List.countP_cons, Nat.add_comm]

/-- A node of two lists in a row stands in the first or in the second, with all of the
first before it. -/
theorem Listed.append_cases {left right : List Subtree} {part : Subtree} {opened : Nat}
    (listed : Listed (left ++ right) opened part) :
    Listed left opened part ∨
      ∃ later, Listed right later part ∧ opened = left.countP Subtree.isGroup + later := by
  obtain ⟨position, found, rfl⟩ := listed
  by_cases early : position < left.length
  · rw [List.getElem?_append_left early] at found
    refine .inl ⟨position, found, ?_⟩
    rw [openedBefore, openedBefore, List.take_append_of_le_length (by omega)]
  · rw [List.getElem?_append_right (by omega)] at found
    refine .inr ⟨_, ⟨position - left.length, found, rfl⟩, ?_⟩
    rw [openedBefore, openedBefore, List.take_append, List.countP_append,
      List.take_of_length_le (by omega)]

/-- The block of a node contains the blocks of all nodes from it on, if it contains those
of the nodes below it. -/
theorem Listed.contains {first part : Subtree} {others : List Subtree} {opened slots : Nat}
    (listed : Listed (first :: others) opened part)
    (below : ∀ later, Listed others later part → Block.Contains (first.layout slots)
      (part.layout (slots + 2 * ((if first.isGroup then 1 else 0) + later)))) :
    Block.Contains (first.layout slots) (part.layout (slots + 2 * opened)) := by
  rcases listed.cons_cases with ⟨rfl, rfl⟩ | ⟨later, inside, rfl⟩
  · exact Block.contains_self _
  · exact below later inside

theorem not_listed_nil (opened : Nat) (part : Subtree) : ¬ Listed [] opened part := by
  rintro ⟨position, found, _⟩
  simp at found

mutual

/-- The groups of a regex are those among its nodes. -/
theorem Regex.countP_preorder (regex : Regex) :
    regex.preorder.countP Subtree.isGroup = regex.groups := by
  cases regex with
  | single sequence =>
    simp [Regex.preorder, Regex.groups, Subtree.isGroup, sequence.countP_preorder]
  | alternate sequence pipe rest =>
    simp [Regex.preorder, Regex.groups, Subtree.isGroup, sequence.countP_preorder,
      rest.countP_preorder]

/-- The groups of a sequence are those among its nodes. -/
theorem Sequence.countP_preorder (sequence : Sequence) :
    sequence.preorder.countP Subtree.isGroup = sequence.groups := by
  cases sequence with
  | empty => rfl
  | last expr => simp [Sequence.preorder, Sequence.groups, Subtree.isGroup, expr.countP_preorder]
  | link expr tail =>
    simp [Sequence.preorder, Sequence.groups, Subtree.isGroup, expr.countP_preorder,
      tail.countP_preorder]

/-- The groups of an expression are those among its nodes. -/
theorem Expr.countP_preorder (expr : Expr) :
    expr.preorder.countP Subtree.isGroup = expr.groups := by
  cases expr with
  | mk term quantifier =>
    simp [Expr.preorder, Expr.groups, Subtree.isGroup, term.countP_preorder]

/-- The groups of a term are those among its nodes. -/
theorem Term.countP_preorder (term : Term) :
    term.preorder.countP Subtree.isGroup = term.groups := by
  cases term with
  | atom token => rfl
  | group opening regex closing =>
    simp [Term.preorder, Term.groups, List.countP_cons, Subtree.isGroup, regex.countP_preorder]
  | charClass opening negation members closing => rfl

end

mutual

/-- The block of a regex contains the blocks of its nodes, compiled after the groups
before them. -/
theorem Regex.layout_contains (regex : Regex) (slots opened : Nat) (part : Subtree)
    (listed : Listed regex.preorder opened part) :
    Block.Contains (regex.layout slots) (part.layout (slots + 2 * opened)) := by
  cases regex with
  | single sequence =>
    refine listed.contains fun later below => ?_
    simpa [Subtree.layout, Regex.layout, Subtree.isGroup] using
      sequence.layout_contains slots later part below
  | alternate sequence pipe rest =>
    refine listed.contains fun later below => ?_
    rcases below.append_cases with inBranch | ⟨further, inRest, rfl⟩
    · have outer := alternateLayout_contains_branch (sequence.layout slots)
        (rest.layout (slots + 2 * sequence.groups)) (rest.layout_closed _)
      simpa [Subtree.layout, Regex.layout, Subtree.isGroup] using
        outer.trans (sequence.layout_contains slots later part inBranch)
    · have outer := alternateLayout_contains_later (sequence.layout slots)
        (rest.layout (slots + 2 * sequence.groups)) (sequence.layout_closed _)
      have inner := rest.layout_contains (slots + 2 * sequence.groups) further part inRest
      simpa [Subtree.layout, Regex.layout, Subtree.isGroup, sequence.countP_preorder,
        Nat.mul_add, Nat.add_assoc] using outer.trans inner

/-- The block of a sequence contains the blocks of its nodes, compiled after the groups
before them. -/
theorem Sequence.layout_contains (sequence : Sequence) (slots opened : Nat) (part : Subtree)
    (listed : Listed sequence.preorder opened part) :
    Block.Contains (sequence.layout slots) (part.layout (slots + 2 * opened)) := by
  cases sequence with
  | empty => exact listed.contains fun later below => absurd below (not_listed_nil later part)
  | last expr =>
    refine listed.contains fun later below => ?_
    simpa [Subtree.layout, Sequence.layout, Subtree.isGroup] using
      expr.layout_contains slots later part below
  | link expr tail =>
    refine listed.contains fun later below => ?_
    rcases below.append_cases with inExpr | ⟨further, inTail, rfl⟩
    · have outer := @Block.contains_between [] (expr.layout slots)
        (tail.layout (slots + 2 * expr.groups)) Block.closed_nil (tail.layout_closed _)
      simpa [Subtree.layout, Sequence.layout, Subtree.isGroup] using
        outer.trans (expr.layout_contains slots later part inExpr)
    · have outer := @Block.contains_between (expr.layout slots)
        (tail.layout (slots + 2 * expr.groups)) [] (expr.layout_closed _) Block.closed_nil
      have inner := tail.layout_contains (slots + 2 * expr.groups) further part inTail
      simpa [Subtree.layout, Sequence.layout, Subtree.isGroup, expr.countP_preorder,
        Nat.mul_add, Nat.add_assoc] using outer.trans inner

/-- The block of an expression contains the blocks of its nodes, compiled after the
groups before them. -/
theorem Expr.layout_contains (expr : Expr) (slots opened : Nat) (part : Subtree)
    (listed : Listed expr.preorder opened part) :
    Block.Contains (expr.layout slots) (part.layout (slots + 2 * opened)) := by
  cases expr with
  | mk term quantifier =>
    refine listed.contains fun later below => ?_
    have inner := term.layout_contains slots later part below
    cases quantifier with
    | none => simpa [Subtree.layout, Expr.layout, Subtree.isGroup] using inner
    | some quantifier =>
      simpa [Subtree.layout, Expr.layout, Subtree.isGroup] using
        (quantifier.layout_contains _).trans inner

/-- The block of a term contains the blocks of its nodes, compiled after the groups
before them. -/
theorem Term.layout_contains (term : Term) (slots opened : Nat) (part : Subtree)
    (listed : Listed term.preorder opened part) :
    Block.Contains (term.layout slots) (part.layout (slots + 2 * opened)) := by
  cases term with
  | atom token =>
    exact listed.contains fun later below => absurd below (not_listed_nil later part)
  | group opening regex closing =>
    refine listed.contains fun later below => ?_
    have saved (slot : Nat) : Block.Closed [.save slot] :=
      Block.closed_singleton (by simp) rfl
    have outer := @Block.contains_between [.save slots] (regex.layout (slots + 2))
      [.save (slots + 1)] (saved _) (saved _)
    have inner := regex.layout_contains (slots + 2) later part below
    simpa [Subtree.layout, Term.layout, Subtree.isGroup, Nat.mul_add, Nat.add_assoc] using
      outer.trans inner
  | charClass opening negation members closing =>
    exact listed.contains fun later below => absurd below (not_listed_nil later part)

end

/-! ### Subtrees in a program -/

/-- A block of instructions stands in a program from `start` on, before another
instruction. Its own branches stay in it or go right behind it, and all other branches
reach at most its first instruction. -/
structure Program.Encloses (program : Program) (start : Nat) (block : List (Inst Nat)) :
    Prop where
  held : block <+: program.insts.toList.drop start
  followed : start + block.length < program.size
  leaving : ∀ (index : Nat) (inst : Inst Nat), program.insts[index]? = some inst →
    start ≤ index → index < start + block.length →
      ∀ target ∈ inst.targets, start ≤ target ∧ target ≤ start + block.length
  entering : ∀ (index : Nat) (inst : Inst Nat), program.insts[index]? = some inst →
    index < start ∨ start + block.length ≤ index →
      ∀ target ∈ inst.targets, target ≤ start ∨ start + block.length ≤ target

/-- The instructions of a resolved block, without the placeholder. -/
def Block.resolved (start : Nat) (block : Block) : List (Inst Nat) :=
  block.mapIdx fun offset inst => inst.placedAt (start + offset)

@[simp]
theorem Block.length_resolved (start : Nat) (block : Block) :
    (Block.resolved start block).length = block.length := by
  simp [Block.resolved]

/-- Blocks in a row are resolved each where it begins. -/
theorem Block.resolved_append (start : Nat) (left right : Block) :
    Block.resolved start (left ++ right) =
      Block.resolved start left ++ Block.resolved (start + left.length) right := by
  simp [Block.resolved, List.mapIdx_append, Nat.add_comm, Nat.add_left_comm]

/-- The first instruction of a block is placed where the block begins. -/
theorem Block.resolved_cons (start : Nat) (inst : Inst Int) (block : Block) :
    Block.resolved start (inst :: block) =
      inst.placedAt start :: Block.resolved (start + 1) block :=
  Block.resolved_append start [inst] block

/-- A fragment resolves to its block and the placeholder. -/
theorem Fragment.resolve_ofBlock (block : Block) (slots : Nat) :
    ((ofBlock block).resolve slots).insts.toList = Block.resolved 0 block ++ [.accept] := by
  have placed : Block.resolved (0 + block.length) [.accept] = [.accept] := rfl
  rw [← placed, ← Block.resolved_append]
  simp [resolve, ofBlock, Block.resolved, Inst.placedAt]

/-- The program of a tree is its block, resolved, and the placeholder. -/
theorem Regex.toList_program (regex : Regex) :
    regex.program.insts.toList = Block.resolved 0 (regex.layout 0) ++ [.accept] := by
  rw [regex.program_eq, Fragment.resolve_ofBlock]

/-- The slots of a tree's program, two for each group. -/
theorem Regex.slots_program (regex : Regex) : regex.program.slots = 2 * regex.groups := by
  rw [regex.program_eq, Fragment.resolve]

/-- Renaming the slots of a closed block and resolving it from `start` on relocates its
instructions. No distance leads before the block, so none is cut off. -/
theorem Block.resolved_mapSlots (block : Block) (closed : Block.Closed block)
    (start slots : Nat) :
    Block.resolved start (block.map (Inst.mapSlots (· + slots))) =
      (Block.resolved 0 block).map (Inst.relocate start slots) := by
  refine List.ext_getElem? fun offset => ?_
  simp only [Block.resolved, List.getElem?_mapIdx, List.getElem?_map]
  cases found : block[offset]? with
  | none => rfl
  | some inst =>
    -- indices are cut off at zero, so the distances have to stay inside the block
    have bounds := (closed offset inst found).inside
    simp only [Option.map_some, Option.some.injEq]
    cases inst with
    | jump distance =>
      have inside := bounds distance (by simp [Inst.targets])
      simp only [Inst.mapSlots, Inst.placedAt, Inst.relocate, Inst.mapTargets, Inst.jump.injEq]
      omega
    | split first second =>
      have insideFirst := bounds first (by simp [Inst.targets])
      have insideSecond := bounds second (by simp [Inst.targets])
      simp only [Inst.mapSlots, Inst.placedAt, Inst.relocate, Inst.mapTargets, Inst.split.injEq]
      omega
    | accept | char | any | oneOf | noneOf | save => rfl

/-- A program whose block contains a closed part encloses the part. -/
theorem Regex.program_encloses_of_contains (regex : Regex) (part : Block)
    (contains : Block.Contains (regex.layout 0) part) (closed : Block.Closed part) :
    ∃ start, regex.program.Encloses start (Block.resolved start part) := by
  obtain ⟨before, after, whole, front, back⟩ := contains
  have size := regex.program_size
  rw [whole] at size
  simp only [List.length_append] at size
  refine ⟨before.length, ⟨?_, ?_, ?_, ?_⟩⟩
  · rw [regex.program_eq, Fragment.resolve_ofBlock, whole, Block.resolved_append,
      Block.resolved_append, List.append_assoc, List.drop_left' (by simp), List.append_assoc,
      Nat.zero_add]
    exact List.prefix_append _ _
  · rw [Block.length_resolved]
    omega
  · intro index inst fetched above below target member
    rw [Block.length_resolved] at below ⊢
    rcases regex.program_inst_cases index inst fetched with ⟨rfl, _⟩ | ⟨source, found, _, rfl⟩
    · simp [Inst.targets] at member
    · rw [Inst.targets_placedAt] at member
      obtain ⟨distance, held, rfl⟩ := List.mem_map.mp member
      rw [whole, List.getElem?_append_right above, List.getElem?_append_left (by omega)] at found
      have bounds := (closed _ source found).inside distance held
      omega
  · intro index inst fetched outside target member
    rw [Block.length_resolved] at outside ⊢
    rcases regex.program_inst_cases index inst fetched with ⟨rfl, _⟩ | ⟨source, found, _, rfl⟩
    · simp [Inst.targets] at member
    · rw [Inst.targets_placedAt] at member
      obtain ⟨distance, held, rfl⟩ := List.mem_map.mp member
      rcases outside with early | late
      · rw [whole, List.getElem?_append_left early] at found
        have lands := front index source found distance held
        omega
      · rw [whole, List.getElem?_append_right (by omega),
          List.getElem?_append_right (by omega)] at found
        have lands := back _ source found distance held
        omega

/-- The code of every node of a tree, compiled on its own and relocated, is enclosed in
the program of the tree. Its slots move past those of the groups opened before it. -/
theorem Regex.program_encloses (regex : Regex) (position : Nat) (part : Subtree)
    (found : regex.preorder[position]? = some part) :
    ∃ body start, part.program.insts.toList = body ++ [.accept] ∧
      regex.program.Encloses start
        (body.map (Inst.relocate start (2 * openedBefore regex.preorder position))) := by
  have contains := regex.layout_contains 0 _ part ⟨position, found, rfl⟩
  obtain ⟨start, enclosed⟩ :=
    regex.program_encloses_of_contains _ contains (part.layout_closed _)
  refine ⟨Block.resolved 0 (part.layout 0), start, ?_, ?_⟩
  · simp only [Subtree.program, part.emit_code, Fragment.resolve_ofBlock]
  · rwa [part.layout_add, Block.resolved_mapSlots _ (part.layout_closed 0)] at enclosed

/-- The alternation in the second of two groups, with the slots of both taken. -/
theorem Regex.program_encloses_alternation : ∃ tree part, parse "(a)(b*|c)" = .ok tree ∧
    tree.preorder[11]? = some part ∧ openedBefore tree.preorder 11 = 2 ∧
    ∃ body start, part.program.insts.toList = body ++ [.accept] ∧
      tree.program.Encloses start (body.map (Inst.relocate start (2 * 2))) :=
  ⟨_, _, rfl, rfl, rfl, Regex.program_encloses _ 11 _ rfl⟩

end RegexCompiler
