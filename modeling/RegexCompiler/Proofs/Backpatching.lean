import Mathlib.Data.List.Nodup
import RegexCompiler.Proofs.Relocation

/-!
# Joining by reference

Pieces of code can also be joined by rewriting them. Every branch then refers to the very
instruction it leads to, wherever that stands. A branch of the first piece that refers to
its placeholder is made to refer to the first instruction of the second piece. After that
the placeholder is dropped, the second piece is put behind, and each reference is replaced
by the index at which its instruction is found.

A join of fragments rewrites nothing and relies on distances. It amounts to the same for
fragments whose branches all land on their own instructions. Other fragments refer to
pieces that are still to be joined, so there is no instruction yet for their branches to
refer to. What can be said of all fragments is that a join moves the branches of the
second piece along with it, leaves those of the first alone, and does not depend on which
of several joins is made first.
-/

namespace RegexCompiler

open Fragment (ofBlock)

/-! ### References -/

/-- An instruction of one of two pieces of code, named by its index there. -/
inductive Reference where
  | left (index : Nat)
  | right (index : Nat)
  deriving DecidableEq

/-- Refer to the first instruction of the second piece instead of instruction `hole` of the
first. -/
def Reference.redirect (hole : Nat) : Reference → Reference
  | .left index => if index = hole then .right 0 else .left index
  | .right index => .right index

/-- The first piece without its last instruction. Branches that led to that instruction are
redirected. -/
def redirected (left : List (Inst Nat)) : List (Inst Reference) :=
  left.dropLast.map (Inst.mapTargets fun target =>
    (Reference.left target).redirect (left.length - 1))

/-- The instructions of two pieces in a row: `hole` of the first and `size` of the second. -/
def references (hole size : Nat) : List Reference :=
  (List.range hole).map .left ++ (List.range size).map .right

/-- Join two pieces by reference. The references of the first are replaced by the indices at
which their instructions are found, and the second is moved behind the first. -/
def backpatch (left right : List (Inst Nat)) : List (Inst Nat) :=
  let hole := left.length - 1
  (redirected left).map (Inst.mapTargets (references hole right.length).idxOf) ++
    right.map (Inst.mapTargets (· + hole))

/-- Of the instructions of the first piece only the one at `hole` is redirected. -/
theorem Reference.redirect_eq_right_iff {hole index : Nat} :
    (Reference.left index).redirect hole = .right 0 ↔ index = hole := by
  rw [Reference.redirect]
  split <;> simp [*]

/-- No instruction is named twice. -/
theorem nodup_references (hole size : Nat) : (references hole size).Nodup := by
  refine List.nodup_append.mpr ⟨?_, ?_, ?_⟩
  · exact List.Nodup.map (fun _ _ => Reference.left.inj) List.nodup_range
  · exact List.Nodup.map (fun _ _ => Reference.right.inj) List.nodup_range
  · simp

/-- An instruction that is kept of the first piece is found where it was, and the first of
the second piece where the dropped one was. -/
theorem idxOf_redirect {hole size target : Nat} (inside : target ≤ hole) (filled : 0 < size) :
    (references hole size).idxOf ((Reference.left target).redirect hole) = target := by
  have within : target < (references hole size).length := by
    simp only [references, List.length_append, List.length_map, List.length_range]
    omega
  have found : (references hole size)[target] = (Reference.left target).redirect hole := by
    rw [Reference.redirect]
    split
    · rename_i last
      simp [references, last]
    · simp [references, List.getElem_append_left, Nat.lt_of_le_of_ne inside ‹_›]
  rw [← found]
  exact (nodup_references hole size).idxOf_getElem target within

/-! ### Branches of a block -/

namespace Block

/-- Where the branches of a block land that begins at `start`. -/
def landings (start : Nat) (block : Block) : List Int :=
  (block.zipIdx start).flatMap fun placed =>
    placed.1.targets.map fun distance => (placed.2 : Int) + distance

theorem landings_cons (start : Nat) (inst : Inst Int) (block : Block) :
    landings start (inst :: block) =
      inst.targets.map (fun distance => (start : Int) + distance) ++
        landings (start + 1) block := by
  simp [landings]

/-- Blocks in a row have the branches of each where it begins. -/
theorem landings_append (start : Nat) (left right : Block) :
    landings start (left ++ right) =
      landings start left ++ landings (start + left.length) right := by
  simp [landings, List.zipIdx_append]

/-- Branches move with their block. -/
theorem landings_add (start steps : Nat) (block : Block) :
    landings (start + steps) block = (landings start block).map (· + (steps : Int)) := by
  induction block generalizing start with
  | nil => rfl
  | cons inst others inductionHypothesis =>
    rw [landings_cons, landings_cons, Nat.add_right_comm, inductionHypothesis, List.map_append,
      List.map_map]
    congr 1
    refine List.map_congr_left fun distance _ => ?_
    simp only [Function.comp_apply]
    omega

/-- The targets of a resolved block are where its branches land. -/
theorem targets_resolved (start : Nat) (block : Block) :
    (resolved start block).flatMap Inst.targets = (landings start block).map Int.toNat := by
  induction block generalizing start with
  | nil => rfl
  | cons inst others inductionHypothesis =>
    rw [resolved_cons, List.flatMap_cons, inductionHypothesis, landings_cons, List.map_append,
      Inst.placedAt, Inst.targets_mapTargets, List.map_map]
    rfl

/-- A block that no branch leaves at the front may be resolved first and moved then. -/
theorem resolved_add (start steps : Nat) (block : Block)
    (inside : ∀ landing ∈ landings start block, 0 ≤ landing) :
    resolved (start + steps) block =
      (resolved start block).map (Inst.mapTargets (· + steps)) := by
  induction block generalizing start with
  | nil => rfl
  | cons inst others inductionHypothesis =>
    rw [landings_cons, List.forall_mem_append, List.forall_mem_map] at inside
    rw [resolved_cons, resolved_cons, Nat.add_right_comm, inductionHypothesis _ inside.2,
      List.map_cons, Inst.placedAt, Inst.placedAt, Inst.mapTargets_mapTargets]
    congr 1
    -- indices are cut off at zero, so the branches have to stay behind the front
    refine Inst.mapTargets_congr fun distance present => ?_
    have behind := inside.1 distance present
    omega

end Block

/-! ### Fragments -/

namespace Fragment

/-- The fragment ends with its placeholder. -/
def Ended (fragment : Fragment) : Prop := fragment.insts.back? = some .accept

/-- Every branch of the fragment lands on one of its instructions. -/
def Complete (fragment : Fragment) : Prop :=
  ∀ landing ∈ fragment.landings, 0 ≤ landing ∧ landing < fragment.size

instance (fragment : Fragment) : Decidable fragment.Ended :=
  inferInstanceAs (Decidable (_ = _))

instance (fragment : Fragment) : Decidable fragment.Complete :=
  inferInstanceAs (Decidable (∀ landing ∈ _, _))

/-- A fragment that ends with its placeholder is a block with the placeholder after it. -/
theorem Ended.exists_block {fragment : Fragment} (ended : fragment.Ended) :
    ∃ block, fragment = ofBlock block := by
  rw [Ended, ← Array.getLast?_toList, List.getLast?_eq_some_iff] at ended
  obtain ⟨block, whole⟩ := ended
  exact ⟨block, congrArg mk (Array.toList_inj.mp whole)⟩

/-- The placeholder has no branches. -/
theorem landings_ofBlock (block : Block) : (ofBlock block).landings = Block.landings 0 block := by
  have silent : Block.landings (0 + block.length) [.accept] = [] := rfl
  rw [← List.append_nil (Block.landings 0 block), ← silent, ← Block.landings_append]
  rfl

/-- Where the branches of a join land. -/
theorem landings_join_ofBlock (left right : Block) :
    ((ofBlock left).join (ofBlock right)).landings =
      (ofBlock left).landings ++
        (ofBlock right).landings.map (· + ((ofBlock left).hole : Int)) := by
  rw [join_ofBlock, landings_ofBlock, landings_ofBlock, landings_ofBlock, hole_ofBlock,
    Block.landings_append, Block.landings_add]

/-- Redirecting the branches of a resolved block that lead to its end, and finding their
instructions again, changes nothing if no branch leads further. -/
theorem map_idxOf_redirected {block : Block} (complete : (ofBlock block).Complete)
    {slots size : Nat} (filled : 0 < size) :
    (redirected ((ofBlock block).resolve slots).insts.toList).map
        (Inst.mapTargets (references block.length size).idxOf) = Block.resolved 0 block := by
  rw [redirected, resolve_ofBlock, List.dropLast_concat, List.length_append,
    Block.length_resolved, List.length_singleton, Nat.add_sub_cancel, List.map_map]
  refine (List.map_congr_left fun inst present => ?_).trans (List.map_id _)
  refine inst.mapTargets_mapTargets_eq_self _ _ fun target leads => idxOf_redirect ?_ filled
  have among := List.mem_flatMap.mpr ⟨inst, present, leads⟩
  rw [Block.targets_resolved, ← landings_ofBlock] at among
  obtain ⟨landing, lands, rfl⟩ := List.mem_map.mp among
  have inside := complete landing lands
  rw [size_ofBlock] at inside
  omega

/-- As many branches are redirected as dangle. -/
theorem count_redirected {block : Block} (complete : (ofBlock block).Complete) (slots : Nat) :
    ((redirected ((ofBlock block).resolve slots).insts.toList).flatMap Inst.targets).count
      (.right 0) = (ofBlock block).dangling := by
  have targets : (redirected ((ofBlock block).resolve slots).insts.toList).flatMap Inst.targets =
      (ofBlock block).landings.map fun landing =>
        (Reference.left landing.toNat).redirect block.length := by
    rw [redirected, resolve_ofBlock, List.dropLast_concat, List.length_append,
      Block.length_resolved, List.length_singleton, Nat.add_sub_cancel, List.flatMap_map]
    simp only [Inst.targets_mapTargets]
    rw [← List.map_flatMap, Block.targets_resolved, List.map_map, landings_ofBlock]
    rfl
  rw [targets, dangling, hole_ofBlock, List.count, List.countP_map, List.count]
  refine List.countP_congr fun landing lands => ?_
  have inside := complete landing lands
  simp only [Function.comp_apply, beq_iff_eq, Reference.redirect_eq_right_iff]
  omega

/-- Resolving a join of complete fragments joins the resolved fragments by reference. -/
theorem resolve_join_ofBlock {left right : Block} (leftComplete : (ofBlock left).Complete)
    (rightComplete : (ofBlock right).Complete) (slots : Nat) :
    (((ofBlock left).join (ofBlock right)).resolve slots).insts.toList =
      backpatch ((ofBlock left).resolve slots).insts.toList
        ((ofBlock right).resolve slots).insts.toList := by
  have behind : ∀ landing ∈ Block.landings 0 right, 0 ≤ landing := fun landing lands =>
    (rightComplete landing ((landings_ofBlock right).symm ▸ lands)).1
  have moved := Block.resolved_add 0 left.length right behind
  have hole : ((ofBlock left).resolve slots).insts.toList.length - 1 = left.length := by
    rw [resolve_ofBlock, List.length_append, Block.length_resolved, List.length_singleton,
      Nat.add_sub_cancel]
  have filled : 0 < ((ofBlock right).resolve slots).insts.toList.length := by
    rw [resolve_ofBlock, List.length_append, List.length_singleton]
    omega
  rw [backpatch, hole, map_idxOf_redirected leftComplete filled, join_ofBlock, resolve_ofBlock,
    resolve_ofBlock, Block.resolved_append, moved, List.map_append, List.append_assoc]
  rfl

/-- A join has the accepting instructions of the second piece, and of the first those before
its placeholder. -/
theorem count_accept_join_ofBlock (left right : Block) :
    ((ofBlock left).join (ofBlock right)).insts.count .accept + 1 =
      (ofBlock left).insts.count .accept + (ofBlock right).insts.count .accept := by
  rw [join_ofBlock]
  simp only [ofBlock, List.count_toArray, List.count_append, List.count_singleton_self]
  omega

/-- What a join does. For complete fragments, resolving the join gives the instructions that
joining by reference gives for the resolved fragments, and as many references are redirected
as branches dangle. Of two fragments with a single accepting instruction the join has one as
well. For all fragments that end with the placeholder, it does not matter which of two joins
is made first, and a join with the empty fragment changes nothing. One after the other, the
branches of the first fragment land where they landed before, and those of the second land
further on by as much as the placeholder of the first is in. -/
theorem join_backpatches (left right other : Fragment) (leftEnded : left.Ended)
    (rightEnded : right.Ended) (otherEnded : other.Ended) :
    (left.Complete → right.Complete → ∀ slots,
      ((left.join right).resolve slots).insts.toList =
        backpatch (left.resolve slots).insts.toList (right.resolve slots).insts.toList ∧
      ((redirected (left.resolve slots).insts.toList).flatMap Inst.targets).count (.right 0) =
        left.dangling) ∧
    (left.insts.count .accept = 1 → right.insts.count .accept = 1 →
      (left.join right).insts.count .accept = 1) ∧
    (left.join right).join other = left.join (right.join other) ∧
    empty.join left = left ∧ left.join empty = left ∧
    (left.join right).landings = left.landings ++ right.landings.map (· + (left.hole : Int)) := by
  obtain ⟨first, rfl⟩ := leftEnded.exists_block
  obtain ⟨second, rfl⟩ := rightEnded.exists_block
  obtain ⟨third, rfl⟩ := otherEnded.exists_block
  refine ⟨?_, ?_, ?_, ?_, ?_, landings_join_ofBlock first second⟩
  · intro leftComplete rightComplete slots
    exact ⟨resolve_join_ofBlock leftComplete rightComplete slots,
      count_redirected leftComplete slots⟩
  · intro leftOnce rightOnce
    have counted := count_accept_join_ofBlock first second
    omega
  · simp only [join_ofBlock, List.append_assoc]
  · rw [empty_eq_ofBlock, join_ofBlock, List.nil_append]
  · rw [empty_eq_ofBlock, join_ofBlock, List.append_nil]

/-- A loop that two branches leave, before an option, and behind a piece that branches past
its own end. -/
theorem join_backpatches_loop : ∃ loop option opened : Fragment,
    loop.insts = #[.split 1 4, .char 'a', .split 2 (-1), .jump (-3), .accept] ∧
    option.insts = #[.split 1 2, .char 'b', .accept] ∧
    opened.insts = #[.jump 3, .accept] ∧
    loop.Complete ∧ option.Complete ∧ ¬ opened.Complete ∧
    backpatch (loop.resolve 0).insts.toList (option.resolve 0).insts.toList =
      [.split 1 4, .char 'a', .split 4 1, .jump 0, .split 5 6, .char 'b', .accept] ∧
    ((redirected (loop.resolve 0).insts.toList).flatMap Inst.targets).count (.right 0) = 2 ∧
    (loop.join option).insts.count .accept = 1 ∧
    (opened.join loop).join option = opened.join (loop.join option) ∧
    (opened.join loop).landings = [3, 2, 5, 5, 2, 1] := by
  refine ⟨⟨#[.split 1 4, .char 'a', .split 2 (-1), .jump (-3), .accept]⟩,
    ⟨#[.split 1 2, .char 'b', .accept]⟩, ⟨#[.jump 3, .accept]⟩, rfl, rfl, rfl, by decide,
    by decide, by decide, ?_⟩
  obtain ⟨patched, accepts, _⟩ := join_backpatches
    ⟨#[.split 1 4, .char 'a', .split 2 (-1), .jump (-3), .accept]⟩
    ⟨#[.split 1 2, .char 'b', .accept]⟩ ⟨#[.jump 3, .accept]⟩ (by decide) (by decide) (by decide)
  obtain ⟨_, _, moved, _, _, landings⟩ := join_backpatches ⟨#[.jump 3, .accept]⟩
    ⟨#[.split 1 4, .char 'a', .split 2 (-1), .jump (-3), .accept]⟩
    ⟨#[.split 1 2, .char 'b', .accept]⟩ (by decide) (by decide) (by decide)
  obtain ⟨joined, counted⟩ := patched (by decide) (by decide) 0
  exact ⟨joined.symm.trans (by decide), counted.trans (by decide),
    accepts (by decide) (by decide), moved, landings.trans (by decide)⟩

end Fragment

end RegexCompiler
