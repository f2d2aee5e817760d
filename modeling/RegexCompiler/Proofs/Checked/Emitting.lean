import RegexCompiler.Proofs.Checked.Scanning
import RegexCompiler.Proofs.ControlFlow

/-!
# Emitting code with checks

The compiler as it is carried out: the last instruction of a fragment is looked up
and must be there, a fragment to be continued must end with its placeholder, the
count of the instructions that remain in an alternation must not drop below zero,
and every distance must resolve to an index of the program.

Fragments meet these conditions because each of them is a block with the placeholder
after it. The count of the instructions that remain is the length of the block of the
alternatives that remain, and a block is closed, so no branch of a finished program
leads out of it.
-/

namespace RegexCompiler.Checked

open Fragment (ofBlock)

/-! ### Fragments -/

/-- Index of the placeholder. -/
def hole (fragment : Fragment) : Except Fault Nat :=
  if fragment.insts.size = 0 then .error .noInstruction else .ok (fragment.insts.size - 1)

/-- Number of branches that lead to whatever comes next. -/
def dangling (fragment : Fragment) : Except Fault Nat := do
  let hole ← hole fragment
  return fragment.landings.count (hole : Int)

/-- Put a fragment in the place of the placeholder. Before that the branches that are
about to be resolved are counted. -/
def join (left right : Fragment) : Except Fault Fragment := do
  if left.insts.back? ≠ some .accept then throw .noPlaceholder
  let _ ← dangling left
  let _ ← hole left
  return left.join right

/-- The placeholder of a block stands right after it. -/
@[simp]
theorem hole_ofBlock (block : Block) : hole (ofBlock block) = .ok block.length := by
  simp [hole, ofBlock]

/-- Fragments of blocks can be joined, which appends the blocks. -/
@[simp]
theorem join_ofBlock (left right : Block) :
    join (ofBlock left) (ofBlock right) = .ok (ofBlock (left ++ right)) := by
  have placeholder : (ofBlock left).insts.back? = some .accept := by simp [ofBlock]
  simp [join, dangling, placeholder]

/-! ### Constructs -/

/-- The code of a repeated body. -/
def repeated (quantifier : Quantifier) (body : Fragment) : Except Fault Fragment := do
  let n : Int := ← hole body
  match quantifier.repetition with
  | .zeroOrMore =>
    let entered ← join (.single (quantifier.split 1 (n + 2))) body
    join entered (.single (.jump (-(n + 1))))
  | .oneOrMore => join body (.single (quantifier.split (-n) 1))
  | .zeroOrOne => join (.single (quantifier.split 1 (n + 1))) body

/-- The code of a group whose bounds are saved in `slot` and the slot after it. -/
def grouped (slot : Nat) (body : Fragment) : Except Fault Fragment := do
  let opened ← join (.single (.save slot)) body
  join opened (.single (.save (slot + 1)))

/-- Take a number of instructions off those that remain. -/
def takeOff (remaining taken : Nat) : Except Fault Nat :=
  if remaining < taken then .error .distanceUnderflow else .ok (remaining - taken)

/-- Continue the code with the alternatives that have a successor. -/
def branches (code : Fragment) (remaining : Nat) : List Fragment → Except Fault Fragment
  | [] => .ok code
  | branch :: later => do
    let n ← hole branch
    let beyond ← takeOff remaining (n + 2)
    let split ← join code (.single (.split 1 ((n : Int) + 2)))
    let body ← join split branch
    let jumped ← join body (.single (.jump beyond))
    branches jumped beyond later

/-- Add up the instructions that the alternatives with a successor take up. -/
def total (sum : Nat) : List Fragment → Except Fault Nat
  | [] => .ok sum
  | branch :: later => do
    let n ← hole branch
    total (sum + (n + 2)) later

/-- The code of a list of alternatives. Without any it is empty. -/
def alternation (alternatives : List Fragment) : Except Fault Fragment := do
  let last := alternatives.getLast?.getD .empty
  let earlier := alternatives.dropLast
  let remaining ← total last.size earlier
  let code ← branches .empty remaining earlier
  join code last

/-- A repetition of a block is its layout. -/
@[simp]
theorem repeated_ofBlock (quantifier : Quantifier) (body : Block) :
    repeated quantifier (ofBlock body) = .ok (ofBlock (quantifier.layout body)) := by
  rw [repeated, Quantifier.layout]
  cases quantifier.repetition <;> simp [Fragment.single_eq_ofBlock]

/-- A group of a block is the block between two saves. -/
@[simp]
theorem grouped_ofBlock (slot : Nat) (body : Block) :
    grouped slot (ofBlock body) = .ok (ofBlock (.save slot :: (body ++ [.save (slot + 1)]))) := by
  simp [grouped, Fragment.single_eq_ofBlock]

/-- The instructions of the alternatives can be counted. -/
theorem total_ofBlock (earlier : List Block) (sum : Nat) :
    total sum (earlier.map ofBlock) =
      .ok ((earlier.map ofBlock).foldl (fun sum branch => sum + branch.branchSize) sum) := by
  induction earlier generalizing sum with
  | nil => rfl
  | cons branch later inductionHypothesis =>
    rw [List.map_cons, total, hole_ofBlock, ok_bind, inductionHypothesis, List.foldl_cons,
      Fragment.branchSize, Fragment.hole_ofBlock]

/-- The alternatives that have a successor are laid out one after the other. What
remains is always the length of the block of the alternatives to come, with the
placeholder, so the count never drops below zero. -/
theorem branches_ofBlock (earlier : List Block) (last done : Block) (remaining : Nat)
    (counted : remaining = (earlier.foldr alternateLayout last).length + 1) :
    (branches (ofBlock done) remaining (earlier.map ofBlock) >>= fun code =>
      join code (ofBlock last)) = .ok (ofBlock (done ++ earlier.foldr alternateLayout last)) := by
  induction earlier generalizing done remaining with
  | nil => simp [branches]
  | cons branch later inductionHypothesis =>
    have beyond : takeOff remaining (branch.length + 2) =
        .ok ((later.foldr alternateLayout last).length + 1) := by
      simp only [List.foldr_cons, alternateLayout, List.length_cons, List.length_append] at counted
      rw [takeOff, if_neg (by omega)]
      congr 1
      omega
    rw [List.map_cons, branches, hole_ofBlock, ok_bind, beyond, ok_bind]
    simp only [Fragment.single_eq_ofBlock, join_ofBlock, ok_bind]
    rw [inductionHypothesis _ _ rfl]
    simp [alternateLayout]

/-- The alternatives join to the block of the alternation. -/
theorem alternation_ofBlock (earlier : List Block) (last : Block) :
    alternation ((earlier ++ [last]).map ofBlock) =
      .ok (ofBlock (earlier.foldr alternateLayout last)) := by
  have total := alternation_total earlier last (ofBlock last).size
  rw [Fragment.size_ofBlock] at total
  have laid := branches_ofBlock earlier last []
    ((earlier.map ofBlock).foldl (fun sum branch => sum + branch.branchSize) (last.length + 1))
    (by omega)
  simpa [alternation, total_ofBlock, Fragment.empty_eq_ofBlock] using laid

/-! ### Trees -/

mutual

/-- The code of each alternative, after that of those already compiled. -/
def emitBranches (found : List Fragment) (slots : Nat) :
    Regex → Except Fault (List Fragment × Nat)
  | .single sequence => do
    let last ← emitSequence .empty slots sequence
    return (found ++ [last.code], last.slots)
  | .alternate sequence _ rest => do
    let branch ← emitSequence .empty slots sequence
    emitBranches (found ++ [branch.code]) branch.slots rest

/-- The code of a sequence, joined to the code before it. -/
def emitSequence (before : Fragment) (slots : Nat) : Sequence → Except Fault Emitted
  | .empty => return ⟨before, slots⟩
  | .last expr => do
    let emitted ← emitExpr slots expr
    return ⟨← join before emitted.code, emitted.slots⟩
  | .link expr tail => do
    let emitted ← emitExpr slots expr
    emitSequence (← join before emitted.code) emitted.slots tail

/-- The code of a term, repeated as its quantifier says. -/
def emitExpr (slots : Nat) : Expr → Except Fault Emitted
  | .mk term none => emitTerm slots term
  | .mk term (some quantifier) => do
    let body ← emitTerm slots term
    return ⟨← repeated quantifier body.code, body.slots⟩

/-- The code of an atom, a group or a character class. -/
def emitTerm (slots : Nat) : Term → Except Fault Emitted
  | .atom token => return ⟨.single (atomInst token), slots⟩
  | .group _ regex _ => do
    let alternatives ← emitBranches [] (slots + 2) regex
    let body ← alternation alternatives.1
    return ⟨← grouped slots body, alternatives.2⟩
  | .charClass _ negation members _ => return ⟨.single (classInst negation members), slots⟩

end

mutual

/-- The alternatives of a regex are the blocks of an alternation that lays it out. -/
theorem emitBranches_eq (regex : Regex) (found : List Block) (slots : Nat) :
    ∃ earlier last,
      emitBranches (found.map ofBlock) slots regex =
        .ok ((found ++ (earlier ++ [last])).map ofBlock, slots + 2 * regex.groups) ∧
      earlier.foldr alternateLayout last = regex.layout slots := by
  cases regex with
  | single sequence =>
    refine ⟨[], sequence.layout slots, ?_, rfl⟩
    have emitted := emitSequence_eq sequence [] slots
    rw [← Fragment.empty_eq_ofBlock] at emitted
    simp [emitBranches, emitted, Regex.groups]
  | alternate sequence pipe rest =>
    obtain ⟨earlier, last, emitted, laidOut⟩ := emitBranches_eq rest
      (found ++ [sequence.layout slots]) (slots + 2 * sequence.groups)
    refine ⟨sequence.layout slots :: earlier, last, ?_, ?_⟩
    · have branch := emitSequence_eq sequence [] slots
      rw [← Fragment.empty_eq_ofBlock] at branch
      rw [List.map_append, List.map_singleton] at emitted
      rw [emitBranches, branch, ok_bind, List.nil_append, emitted, Regex.groups,
        List.append_assoc]
      congr 2
      omega
    · rw [List.foldr_cons, laidOut, Regex.layout]

/-- Compiling a sequence appends its block to the code before it. -/
theorem emitSequence_eq (sequence : Sequence) (before : Block) (slots : Nat) :
    emitSequence (ofBlock before) slots sequence =
      .ok ⟨ofBlock (before ++ sequence.layout slots), slots + 2 * sequence.groups⟩ := by
  cases sequence with
  | empty => simp [emitSequence, Sequence.layout, Sequence.groups]
  | last expr => simp [emitSequence, Sequence.layout, Sequence.groups, emitExpr_eq expr slots]
  | link expr tail =>
    simp only [emitSequence, emitExpr_eq expr slots, ok_bind, join_ofBlock,
      emitSequence_eq tail, Sequence.layout, Sequence.groups, List.append_assoc]
    congr 2
    omega

/-- Compiling an expression yields its block. -/
theorem emitExpr_eq (expr : Expr) (slots : Nat) :
    emitExpr slots expr = .ok ⟨ofBlock (expr.layout slots), slots + 2 * expr.groups⟩ := by
  cases expr with
  | mk term quantifier =>
    cases quantifier with
    | none => simp [emitExpr, Expr.layout, Expr.groups, emitTerm_eq term slots]
    | some quantifier => simp [emitExpr, Expr.layout, Expr.groups, emitTerm_eq term slots]

/-- Compiling a term yields its block. -/
theorem emitTerm_eq (term : Term) (slots : Nat) :
    emitTerm slots term = .ok ⟨ofBlock (term.layout slots), slots + 2 * term.groups⟩ := by
  cases term with
  | atom token => simp [emitTerm, Term.layout, Term.groups, Fragment.single_eq_ofBlock]
  | group opening regex closing =>
    obtain ⟨earlier, last, emitted, laidOut⟩ := emitBranches_eq regex [] (slots + 2)
    simp only [List.map_nil, List.nil_append] at emitted
    simp only [emitTerm, emitted, ok_bind, alternation_ofBlock, laidOut, grouped_ofBlock,
      pure_eq_ok, Term.layout, Term.groups]
    congr 2
    omega
  | charClass opening negation members closing =>
    simp [emitTerm, Term.layout, Term.groups, Fragment.single_eq_ofBlock]

end

/-! ### Programs -/

/-- The index a distance leads to from an instruction. -/
def target (size index : Nat) (distance : Int) : Except Fault Nat :=
  if 0 ≤ (index : Int) + distance ∧ (index : Int) + distance < size then
    .ok ((index : Int) + distance).toNat
  else .error .targetOutside

/-- Turn distances into indices. -/
def resolve (fragment : Fragment) (slots : Nat) : Except Fault Program := do
  let insts ← fragment.insts.toList.zipIdx.mapM fun placed =>
    placed.1.mapTargetsM (target fragment.size placed.2)
  return ⟨insts.toArray, slots⟩

/-- A computation that succeeds on every item of a list succeeds on the list. -/
theorem mapM_eq_ok {α β : Type} {compute : α → Except Fault β} {value : α → β} (items : List α)
    (each : ∀ item ∈ items, compute item = .ok (value item)) :
    items.mapM compute = .ok (items.map value) := by
  induction items with
  | nil => rfl
  | cons item others inductionHypothesis =>
    rw [List.forall_mem_cons] at each
    rw [List.mapM_cons, each.1, ok_bind, inductionHypothesis each.2]
    rfl

/-- A computation that succeeds on every target of an instruction replaces them all. -/
theorem mapTargetsM_eq_ok {τ υ : Type} {compute : τ → Except Fault υ} {value : τ → υ}
    (inst : Inst τ) (each : ∀ target ∈ inst.targets, compute target = .ok (value target)) :
    inst.mapTargetsM compute = .ok (inst.mapTargets value) := by
  cases inst with
  | jump target =>
    rw [Inst.mapTargetsM, each target (by simp [Inst.targets])]
    rfl
  | split first second =>
    rw [Inst.mapTargetsM, each first (by simp [Inst.targets]), ok_bind,
      each second (by simp [Inst.targets])]
    rfl
  | _ => rfl

/-- Every branch of a closed block resolves to an index of its program. -/
theorem resolve_ofBlock {block : Block} (closed : Block.Closed block) (slots : Nat) :
    resolve (ofBlock block) slots = .ok ((ofBlock block).resolve slots) := by
  have each : ∀ placed ∈ (block ++ [Inst.accept]).zipIdx,
      placed.1.mapTargetsM (target (block.length + 1) placed.2) =
        .ok (placed.1.placedAt placed.2) := by
    rintro ⟨inst, index⟩ placed
    have found : (block ++ [Inst.accept])[index]? = some inst :=
      List.mem_zipIdx_iff_getElem?.mp placed
    refine mapTargetsM_eq_ok inst ?_
    intro distance present
    by_cases early : index < block.length
    · rw [List.getElem?_append_left early] at found
      have inside := (closed index inst found).inside distance present
      exact if_pos (by push_cast; omega)
    · rw [List.getElem?_append_right (by omega)] at found
      obtain rfl : inst = .accept := by simpa using List.mem_of_getElem? found
      simp [Inst.targets] at present
  have mapped := mapM_eq_ok _ each
  rw [resolve, Fragment.size_ofBlock, ofBlock, mapped, ok_bind, Fragment.resolve, pure_eq_ok,
    List.mapIdx_toArray, List.mapIdx_eq_zipIdx_map]
  rfl

-- a block that is not closed does not resolve
example : resolve (ofBlock [.jump 2]) 0 = .error .targetOutside := by rfl

/-- Compile a tree. -/
def program (regex : Regex) : Except Fault Program := do
  let alternatives ← emitBranches [] 0 regex
  let code ← alternation alternatives.1
  resolve code alternatives.2

/-- Compiling meets no fault and gives the program of the tree. -/
theorem program_eq (regex : Regex) : program regex = .ok regex.program := by
  obtain ⟨earlier, last, emitted, laidOut⟩ := emitBranches_eq regex [] 0
  simp only [List.map_nil, List.nil_append, Nat.zero_add] at emitted
  rw [program, emitted, ok_bind, alternation_ofBlock, ok_bind, laidOut,
    resolve_ofBlock (regex.layout_closed 0), regex.program_eq]

end RegexCompiler.Checked
