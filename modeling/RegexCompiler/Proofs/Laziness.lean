import RegexCompiler.Proofs.Composition
import RegexCompiler.Proofs.Insertion
import RegexCompiler.Proofs.Quantifiers

/-!
# A lazy quantifier exchanges the targets of its split

Making some of the greedy quantifiers of a tree lazy exchanges the targets at the splits that
come from them and changes nothing else, as the three layouts differ only in where they put
the split. In the pattern this is done by writing a `?` behind the operators. The new `?` is
read as the mark of the operator before it, because the tree in which these quantifiers are
lazy has the tokens of the new pattern, apart from their positions, and no other tree has.
-/

namespace RegexCompiler

/-! ### Lazy quantifiers -/

/-- A quantifier, made lazy if it is one of those chosen. -/
def Quantifier.lazily (chosen : List Quantifier) (quantifier : Quantifier) : Quantifier :=
  if quantifier ∈ chosen then { quantifier with lazy := some questionMark } else quantifier

/-- The token of a site, with a `?` behind it if it is the operator of a chosen quantifier. -/
def Site.marked (chosen : List Quantifier) : Site → List Token
  | .plain token => [token]
  | .operator quantifier =>
    if quantifier ∈ chosen then [quantifier.operator, questionMark] else [quantifier.operator]

/-- All these quantifiers prefer to repeat. -/
def AllGreedy (chosen : List Quantifier) : Prop :=
  ∀ quantifier ∈ chosen, quantifier.isGreedy = true

/-- A quantifier is greedy if it has no mark. -/
theorem Quantifier.isGreedy_iff (quantifier : Quantifier) :
    quantifier.isGreedy = true ↔ quantifier.lazy = none := by
  rw [Quantifier.isGreedy, Option.isNone_iff_eq_none]

section

variable {chosen : List Quantifier}

/-- A quantifier that is made lazy conforms as before. -/
theorem Quantifier.conforms_lazily (quantifier : Quantifier) (conforms : quantifier.Conforms) :
    (quantifier.lazily chosen).Conforms := by
  rw [Quantifier.lazily]
  split
  · refine ⟨conforms.1, ?_⟩
    rintro mark ⟨⟩
    rfl
  · exact conforms

/-- A greedy quantifier that is made lazy gets a mark, and no other changes. -/
theorem Quantifier.tokens_lazily (greedy : AllGreedy chosen) (quantifier : Quantifier) :
    (quantifier.lazily chosen).tokens = quantifier.sites.flatMap (Site.marked chosen) := by
  by_cases among : quantifier ∈ chosen
  · have unmarked := quantifier.isGreedy_iff.mp (greedy quantifier among)
    simp [Quantifier.lazily, Quantifier.tokens, Quantifier.sites, Site.marked, among, unmarked]
  · cases marked : quantifier.lazy <;>
      simp [Quantifier.lazily, Quantifier.tokens, Quantifier.sites, Site.marked, among, marked]

theorem flatMap_marked_plain (tokens : List Token) :
    (tokens.map Site.plain).flatMap (Site.marked chosen) = tokens := by
  rw [List.flatMap_map]
  exact List.flatMap_singleton' tokens

mutual

/-- A regex in which greedy quantifiers are made lazy has a `?` behind their operators. -/
theorem Regex.tokens_lazily (greedy : AllGreedy chosen) (regex : Regex) :
    (regex.mapQuantifiers (Quantifier.lazily chosen)).tokens =
      regex.sites.flatMap (Site.marked chosen) := by
  cases regex with
  | single sequence => exact sequence.tokens_lazily greedy
  | alternate sequence pipe rest =>
    simp [Regex.mapQuantifiers, Regex.tokens, Regex.sites, Site.marked,
      sequence.tokens_lazily greedy, rest.tokens_lazily greedy]

/-- As for a regex, of a sequence. -/
theorem Sequence.tokens_lazily (greedy : AllGreedy chosen) (sequence : Sequence) :
    (sequence.mapQuantifiers (Quantifier.lazily chosen)).tokens =
      sequence.sites.flatMap (Site.marked chosen) := by
  cases sequence with
  | empty => rfl
  | last expr => exact expr.tokens_lazily greedy
  | link expr tail =>
    simp [Sequence.mapQuantifiers, Sequence.tokens, Sequence.sites, expr.tokens_lazily greedy,
      tail.tokens_lazily greedy]

/-- As for a regex, of an expression. -/
theorem Expr.tokens_lazily (greedy : AllGreedy chosen) (expr : Expr) :
    (expr.mapQuantifiers (Quantifier.lazily chosen)).tokens =
      expr.sites.flatMap (Site.marked chosen) := by
  cases expr with
  | mk term quantifier =>
    cases quantifier with
    | none => exact term.tokens_lazily greedy
    | some quantifier =>
      simp [Expr.mapQuantifiers, Expr.tokens, Expr.sites, term.tokens_lazily greedy,
        quantifier.tokens_lazily greedy]

/-- As for a regex, of a term. -/
theorem Term.tokens_lazily (greedy : AllGreedy chosen) (term : Term) :
    (term.mapQuantifiers (Quantifier.lazily chosen)).tokens =
      term.sites.flatMap (Site.marked chosen) := by
  cases term with
  | atom token => rfl
  | group opening regex closing =>
    simp [Term.mapQuantifiers, Term.tokens, Term.sites, Site.marked, regex.tokens_lazily greedy]
  | charClass opening negation members closing =>
    rw [Term.mapQuantifiers, Term.sites, flatMap_marked_plain]

end

/-! ### Code -/

/-- An instruction whose targets are exchanged if it is a split. -/
def Inst.exchange {τ : Type} : Inst τ → Inst τ
  | .split first second => .split second first
  | inst => inst

theorem Inst.exchange_mapTargets {τ υ : Type} (f : τ → υ) (inst : Inst τ) :
    (inst.mapTargets f).exchange = inst.exchange.mapTargets f := by
  cases inst <;> rfl

/-- An instruction whose targets are exchanged if it comes from a chosen quantifier. -/
def exchangeFor (chosen : List Quantifier) (inst : Inst Int) (origin : Option Quantifier) :
    Inst Int :=
  if ∃ quantifier ∈ chosen, origin = some quantifier then inst.exchange else inst

@[simp]
theorem exchangeFor_none (inst : Inst Int) : exchangeFor chosen inst none = inst := by
  simp [exchangeFor]

/-- A greedy quantifier that is made lazy has the targets of its split exchanged. -/
theorem Quantifier.split_lazily (greedy : AllGreedy chosen) (quantifier : Quantifier)
    (body exit : Int) : (quantifier.lazily chosen).split body exit =
      exchangeFor chosen (quantifier.split body exit) (some quantifier) := by
  by_cases among : quantifier ∈ chosen
  · have unmarked := quantifier.isGreedy_iff.mp (greedy quantifier among)
    simp [Quantifier.lazily, Quantifier.split, exchangeFor, among, unmarked, Inst.exchange,
      Quantifier.isGreedy]
  · simp [Quantifier.lazily, exchangeFor, among]

/-- A repeated body in which greedy quantifiers are made lazy, given that the body has the
targets at their splits exchanged. -/
theorem Quantifier.layout_lazily (greedy : AllGreedy chosen) (quantifier : Quantifier)
    {body : Block} {origins : List (Option Quantifier)}
    (paired : body.length = origins.length) :
    (quantifier.lazily chosen).layout (List.zipWith (exchangeFor chosen) body origins) =
      List.zipWith (exchangeFor chosen) (quantifier.layout body)
        (quantifier.origins origins) := by
  have repetition : (quantifier.lazily chosen).repetition = quantifier.repetition := by
    rw [Quantifier.lazily]
    split <;> rfl
  have length : (List.zipWith (exchangeFor chosen) body origins).length = body.length := by
    rw [List.length_zipWith, ← paired, Nat.min_self]
  rw [Quantifier.layout, repetition, length, Quantifier.layout, Quantifier.origins]
  cases quantifier.repetition with
  | zeroOrMore => simp [quantifier.split_lazily greedy, List.zipWith_append paired]
  | oneOrMore => simp [quantifier.split_lazily greedy, List.zipWith_append paired]
  | zeroOrOne => simp [quantifier.split_lazily greedy]

mutual

/-- A regex in which greedy quantifiers are made lazy has the targets at their splits
exchanged and is laid out as before otherwise. -/
theorem Regex.layout_lazily (greedy : AllGreedy chosen) (regex : Regex) (slots : Nat) :
    (regex.mapQuantifiers (Quantifier.lazily chosen)).layout slots =
      List.zipWith (exchangeFor chosen) (regex.layout slots) regex.origins := by
  cases regex with
  | single sequence => exact sequence.layout_lazily greedy slots
  | alternate sequence pipe rest =>
    have branch := (sequence.layout_origins slots).length_eq
    have later := (rest.layout_origins (slots + 2 * sequence.groups)).length_eq
    simp [Regex.mapQuantifiers, Regex.layout, Regex.origins, alternateLayout,
      sequence.layout_lazily greedy, rest.layout_lazily greedy, sequence.groups_mapQuantifiers,
      List.zipWith_append branch, branch, later]

/-- As for a regex, of a sequence. -/
theorem Sequence.layout_lazily (greedy : AllGreedy chosen) (sequence : Sequence) (slots : Nat) :
    (sequence.mapQuantifiers (Quantifier.lazily chosen)).layout slots =
      List.zipWith (exchangeFor chosen) (sequence.layout slots) sequence.origins := by
  cases sequence with
  | empty => rfl
  | last expr => exact expr.layout_lazily greedy slots
  | link expr tail =>
    have first := (expr.layout_origins slots).length_eq
    simp [Sequence.mapQuantifiers, Sequence.layout, Sequence.origins, expr.layout_lazily greedy,
      tail.layout_lazily greedy, expr.groups_mapQuantifiers, List.zipWith_append first]

/-- As for a regex, of an expression. -/
theorem Expr.layout_lazily (greedy : AllGreedy chosen) (expr : Expr) (slots : Nat) :
    (expr.mapQuantifiers (Quantifier.lazily chosen)).layout slots =
      List.zipWith (exchangeFor chosen) (expr.layout slots) expr.origins := by
  cases expr with
  | mk term quantifier =>
    cases quantifier with
    | none => exact term.layout_lazily greedy slots
    | some quantifier =>
      have body := (term.layout_origins slots).length_eq
      simp [Expr.mapQuantifiers, Expr.layout, Expr.origins, term.layout_lazily greedy,
        quantifier.layout_lazily greedy body]

/-- As for a regex, of a term. -/
theorem Term.layout_lazily (greedy : AllGreedy chosen) (term : Term) (slots : Nat) :
    (term.mapQuantifiers (Quantifier.lazily chosen)).layout slots =
      List.zipWith (exchangeFor chosen) (term.layout slots) term.origins := by
  cases term with
  | atom token => simp [Term.mapQuantifiers, Term.layout, Term.origins]
  | group opening regex closing =>
    have body := (regex.layout_origins (slots + 2)).length_eq
    simp [Term.mapQuantifiers, Term.layout, Term.origins, regex.layout_lazily greedy,
      List.zipWith_append body]
  | charClass opening negation members closing =>
    simp [Term.mapQuantifiers, Term.layout, Term.origins]

end

end

/-- A program with the targets exchanged at some of its splits. -/
def Program.exchangeAt (program : Program) (selected : Nat → Prop) [DecidablePred selected] :
    Program :=
  ⟨program.insts.mapIdx fun index inst => if selected index then inst.exchange else inst,
    program.slots⟩

/-- The program of a regex in which greedy quantifiers are made lazy has the targets at their
splits exchanged. -/
theorem Regex.program_lazily {chosen : List Quantifier} (greedy : AllGreedy chosen)
    (regex : Regex) :
    (regex.mapQuantifiers (Quantifier.lazily chosen)).program =
      regex.program.exchangeAt fun index =>
        ∃ quantifier ∈ chosen, regex.origins[index]? = some (some quantifier) := by
  have paired := (regex.layout_origins 0).length_eq
  -- the placeholder behind the block comes from no quantifier
  have whole : List.zipWith (exchangeFor chosen) (regex.layout 0) regex.origins ++ [.accept] =
      List.zipWith (exchangeFor chosen) (regex.layout 0 ++ [.accept])
        (regex.origins ++ [none]) := by
    simp [List.zipWith_append paired]
  refine Program.eq_of_toList (List.ext_getElem? fun index => ?_) ?_
  · rw [Array.getElem?_toList, Array.getElem?_toList, Regex.program_getElem?,
      regex.layout_lazily greedy, whole, Program.exchangeAt, Array.getElem?_mapIdx,
      Regex.program_getElem?, List.getElem?_zipWith]
    cases found : (regex.layout 0 ++ [.accept])[index]? with
    | none => rfl
    | some inst =>
      have inside := (List.getElem?_eq_some_iff.mp found).1
      have inside' : index < (regex.origins ++ [none]).length := by
        simpa [paired] using inside
      have agrees (quantifier : Quantifier) : (regex.origins ++ [none])[index] = some quantifier ↔
          regex.origins[index]? = some (some quantifier) := by
        rw [List.getElem_append]
        split <;> simp_all
      rw [List.getElem?_eq_getElem inside']
      simp only [Option.map_some, exchangeFor, agrees, Option.some.injEq]
      split
      · exact (inst.exchange_mapTargets _).symm
      · rfl
  · rw [Regex.slots_program, regex.groups_mapQuantifiers, ← regex.slots_program]
    rfl

/-- The split of a quantifier is one of the program. -/
theorem Regex.exists_split {regex : Regex} {index : Nat} {quantifier : Quantifier}
    (found : regex.origins[index]? = some (some quantifier)) :
    ∃ first second, regex.program.insts[index]? = some (.split first second) := by
  have fits := regex.layout_origins 0
  obtain ⟨inside, here⟩ := List.getElem?_eq_some_iff.mp found
  have inside' : index < (regex.layout 0).length := fits.length_eq ▸ inside
  obtain ⟨body, exit, same⟩ : ∃ body exit,
      (regex.layout 0)[index] = quantifier.split body exit :=
    fits.get inside' inside quantifier here
  rw [regex.program_getElem?, List.getElem?_append_left inside',
    List.getElem?_eq_getElem inside', same, Quantifier.split]
  split <;> exact ⟨_, _, rfl⟩

/-! ### Marks in a pattern -/

/-- Where tokens end in different places, a `?` is behind the operators of the chosen
quantifiers if it is behind the tokens that end where these do. -/
theorem Regex.flatMap_marked {regex : Regex} {chosen : List Quantifier}
    (distinct : (regex.tokens.map fun token => token.span.stop).Nodup)
    (present : ∀ quantifier ∈ chosen, quantifier ∈ regex.quantifiers) :
    regex.sites.flatMap (Site.marked chosen) =
      markTokens (chosen.map fun quantifier => quantifier.operator.span.stop)
        regex.tokens := by
  rw [← regex.map_token_sites, List.map_map] at distinct
  have apart := List.inj_on_of_nodup_map distinct
  rw [markTokens, ← regex.map_token_sites, List.flatMap_map]
  refine List.flatMap_congr fun site among => ?_
  by_cases ends : site.token.span.stop ∈
      chosen.map fun quantifier => quantifier.operator.span.stop
  · rw [if_pos ends]
    obtain ⟨quantifier, inside, stop⟩ := List.mem_map.mp ends
    have operates := Regex.mem_quantifiers.mp (present quantifier inside)
    obtain rfl := apart among operates stop.symm
    exact if_pos inside
  · rw [if_neg ends]
    cases site with
    | plain token => rfl
    | operator quantifier => exact if_neg fun inside => ends (List.mem_map.mpr ⟨_, inside, rfl⟩)

/-- A pattern whose tokens are those of a canonical tree of the grammar, apart from their
positions, has the program of this tree. -/
theorem compile_of_erased {pattern : String} {tree : Regex} (conforms : tree.Conforms nestingLimit)
    (canonical : tree.Canonical)
    (same : (patternTokens pattern).map Token.erased = tree.tokens.map Token.erased) :
    compile pattern = .ok tree.program := by
  have kinds (tokens : List Token) :
      (tokens.map Token.erased).map Token.kind = tokens.map Token.kind := by
    rw [List.map_map]
    rfl
  have derivation : Derives .regex nestingLimit ((patternTokens pattern).map Token.kind) := by
    rw [← kinds, same, kinds]
    exact conforms.derives
  obtain ⟨found, parsed⟩ := exists_parse_of_derives derivation
  obtain ⟨conforms', canonical', tokens⟩ := (parse_eq_ok_iff pattern found).mp parsed
  rw [← tokens] at same
  have erased := Regex.erased_eq_of_tokens conforms' conforms canonical' canonical same
  exact (compile_eq_ok_iff pattern _).mpr
    ⟨found, parsed, (outline_eq_of_erased Text.isPrintable erased).2⟩

/-- A `?` behind the operators of some greedy quantifiers of a pattern exchanges the targets
at their splits. -/
theorem compile_markPattern {pattern : String} {tree : Regex} (parsed : parse pattern = .ok tree)
    {chosen : List Quantifier} (present : ∀ quantifier ∈ chosen, quantifier ∈ tree.quantifiers)
    (greedy : AllGreedy chosen) :
    compile (markPattern (chosen.map fun quantifier => quantifier.operator.span.stop) pattern) =
      .ok (tree.program.exchangeAt fun index =>
        ∃ quantifier ∈ chosen, tree.origins[index]? = some (some quantifier)) := by
  obtain ⟨conforms, canonical, tokens⟩ := (parse_eq_ok_iff pattern tree).mp parsed
  have distinct : (tree.tokens.map fun token => token.span.stop).Nodup :=
    tokens ▸ nodup_stop_patternTokens pattern
  have operators : EndOperators (chosen.map fun quantifier => quantifier.operator.span.stop) 0
      (patternTokens pattern) := by
    intro position among _
    obtain ⟨quantifier, inside, rfl⟩ := List.mem_map.mp among
    exact ⟨quantifier.operator, tokens ▸ Regex.operator_mem_tokens (present quantifier inside),
      rfl, conforms.isOperator (present quantifier inside)⟩
  rw [← tree.program_lazily greedy]
  refine compile_of_erased (Regex.conforms_mapQuantifiers Quantifier.conforms_lazily conforms)
    (Regex.canonical_mapQuantifiers canonical) ?_
  rw [erased_patternTokens_markPattern operators, tree.tokens_lazily greedy,
    Regex.flatMap_marked distinct present, tokens]

/-- The bytes up to the end of a quantifier's operator can be told apart, and there are
some. -/
theorem exists_front {pattern : String} {tree : Regex} (parsed : parse pattern = .ok tree)
    {quantifier : Quantifier} (present : quantifier ∈ tree.quantifiers) :
    ∃ front behind, pattern = front ++ behind ∧ front ≠ "" ∧
      front.utf8ByteSize = quantifier.operator.span.stop := by
  obtain ⟨conforms, _, tokens⟩ := (parse_eq_ok_iff pattern tree).mp parsed
  have operates := conforms.isOperator present
  have among : quantifier.operator ∈ patternTokens pattern :=
    tokens ▸ Regex.operator_mem_tokens present
  have unlike (kind : Kind) (plain : ¬ kind.IsOperator) : quantifier.operator.kind ≠ kind :=
    fun same => plain (same ▸ operates)
  have delivered : quantifier.operator ∈ (Scanner.ofPattern pattern).stream := by
    rw [stream_ofPattern]
    exact List.mem_append_left _ among
  obtain ⟨before, after, split⟩ := List.append_of_mem delivered
  obtain ⟨front, behind, whole, bytes, _⟩ := stream_up_to split
    (unlike .literal (by simp [Kind.IsOperator])) (unlike .endOfInput (by simp [Kind.IsOperator]))
  refine ⟨front, behind, whole, ?_, bytes⟩
  rintro rfl
  have positive := (tiles_patternTokens pattern).lt_stop _ (List.mem_map_of_mem among)
  exact absurd bytes (Nat.ne_of_lt positive)

/-- Laziness only exchanges the targets of splits. Every quantifier of a pattern's tree has
one instruction of its own, and this is a split. A `?` written behind the operators of any
greedy quantifiers gives a pattern that compiles to the same program, with the targets
exchanged at the splits of these quantifiers and nowhere else. -/
theorem compile_laziness (pattern : String) (tree : Regex) (parsed : parse pattern = .ok tree) :
    (∀ quantifier ∈ tree.quantifiers, ∃ index : Nat,
      (∃ first second, tree.program.insts[index]? = some (.split first second)) ∧
        ∀ other : Nat, tree.origins[other]? = some (some quantifier) ↔ other = index) ∧
    (∀ quantifier ∈ tree.quantifiers, quantifier.isGreedy = true →
      ∃ front behind, pattern = front ++ behind ∧
        front.utf8ByteSize = quantifier.operator.span.stop ∧
        compile (front ++ "?" ++ behind) = .ok (tree.program.exchangeAt fun index =>
          tree.origins[index]? = some (some quantifier))) ∧
    ∀ chosen : List Quantifier,
      (∀ quantifier ∈ chosen, quantifier ∈ tree.quantifiers ∧ quantifier.isGreedy = true) →
      compile (markPattern (chosen.map fun quantifier => quantifier.operator.span.stop)
        pattern) = .ok (tree.program.exchangeAt fun index =>
          ∃ quantifier ∈ chosen, tree.origins[index]? = some (some quantifier)) := by
  refine ⟨?_, ?_, ?_⟩
  · intro quantifier present
    have distinct : (tree.tokens.map fun token => token.span.stop).Nodup :=
      ((parse_eq_ok_iff pattern tree).mp parsed).2.2 ▸ nodup_stop_patternTokens pattern
    obtain ⟨index, found, unique⟩ := Regex.exists_origin distinct present
    refine ⟨index, Regex.exists_split found, fun other => ⟨unique other, ?_⟩⟩
    rintro rfl
    exact found
  · intro quantifier present greedy
    obtain ⟨front, behind, rfl, filled, bytes⟩ := exists_front parsed present
    refine ⟨front, behind, rfl, bytes, ?_⟩
    have marked := compile_markPattern parsed (List.forall_mem_singleton.mpr present)
      (List.forall_mem_singleton.mpr greedy)
    rw [List.map_singleton, ← bytes, markPattern_singleton front behind filled] at marked
    simpa using marked
  · intro chosen greedy
    exact compile_markPattern parsed (fun quantifier inside => (greedy quantifier inside).1)
      fun quantifier inside => (greedy quantifier inside).2

/-- An option inside a loop, both of which are made lazy. -/
theorem compile_laziness_nested :
    let option : Quantifier := ⟨.zeroOrOne, ⟨.question, '?', ⟨3, 4⟩⟩, none⟩
    let loop : Quantifier := ⟨.zeroOrMore, ⟨.star, '*', ⟨5, 6⟩⟩, none⟩
    ∃ tree, parse "(é?)*" = .ok tree ∧ tree.quantifiers = [option, loop] ∧
      tree.origins = [some loop, none, some option, none, none, none] ∧
      compile "(é??)*?" = .ok (tree.program.exchangeAt fun index => index = 0 ∨ index = 2) := by
  intro option loop
  have parsed : parse "(é?)*" = .ok (.single (.last (.mk (.group ⟨.leftParen, '(', ⟨0, 1⟩⟩
      (.single (.last (.mk (.atom ⟨.literal, 'é', ⟨1, 3⟩⟩) (some option))))
      ⟨.rightParen, ')', ⟨4, 5⟩⟩) (some loop)))) := rfl
  refine ⟨_, parsed, by decide, by decide, ?_⟩
  have marked := (compile_laziness "(é?)*" _ parsed).2.2 [option, loop] (by decide)
  have written : markPattern ([option, loop].map fun quantifier => quantifier.operator.span.stop)
      "(é?)*" = "(é??)*?" := by decide
  rw [written] at marked
  rw [marked]
  decide

end RegexCompiler
