import Mathlib.Data.List.Nodup
import Mathlib.Data.List.ReduceOption
import RegexCompiler.Proofs.Canonical
import RegexCompiler.Proofs.Layout

/-!
# Quantifiers of a tree and their instructions

The tokens of a tree are listed with the quantifiers of the operators among them. All
quantifiers may be replaced by others without touching anything else, and a tree remains
one of the grammar and canonical if the new quantifiers conform.

Every quantifier has one instruction of its own, a split to what it repeats and past it.
Beside the block of a tree stands a list of origins, which has for each instruction the
quantifier that it is the split of, if it is one. The quantifiers among the origins are
those of the tree, in another order where a split comes before what it repeats.
-/

namespace RegexCompiler

/-! ### Quantifiers of a tree -/

/-- A token of a tree, with its quantifier if it is an operator. -/
inductive Site where
  | plain (token : Token)
  | operator (quantifier : Quantifier)

/-- The token itself. -/
def Site.token : Site → Token
  | .plain token => token
  | .operator quantifier => quantifier.operator

/-- The quantifier if the token is an operator. -/
def Site.quantifier? : Site → Option Quantifier
  | .plain _ => none
  | .operator quantifier => some quantifier

/-- The operator of a quantifier and the mark that makes it lazy. -/
def Quantifier.sites (quantifier : Quantifier) : List Site :=
  .operator quantifier :: quantifier.lazy.toList.map .plain

mutual

/-- The tokens of a regex in order, with the quantifiers of the operators. -/
def Regex.sites : Regex → List Site
  | .single sequence => sequence.sites
  | .alternate sequence pipe rest => sequence.sites ++ .plain pipe :: rest.sites

/-- The tokens of a sequence in order, with the quantifiers of the operators. -/
def Sequence.sites : Sequence → List Site
  | .empty => []
  | .last expr => expr.sites
  | .link expr tail => expr.sites ++ tail.sites

/-- The tokens of an expression in order, with the quantifiers of the operators. -/
def Expr.sites : Expr → List Site
  | .mk term none => term.sites
  | .mk term (some quantifier) => term.sites ++ quantifier.sites

/-- The tokens of a term in order, with the quantifiers of the operators. -/
def Term.sites : Term → List Site
  | .atom token => [.plain token]
  | .group opening regex closing => .plain opening :: (regex.sites ++ [.plain closing])
  | .charClass opening negation members closing =>
    (Term.charClass opening negation members closing).tokens.map .plain

end

/-- The quantifiers of a regex in the order of their operators. -/
def Regex.quantifiers (regex : Regex) : List Quantifier :=
  regex.sites.filterMap Site.quantifier?

/-- A quantifier is one of a regex if its operator is among the tokens. -/
theorem Regex.mem_quantifiers {regex : Regex} {quantifier : Quantifier} :
    quantifier ∈ regex.quantifiers ↔ .operator quantifier ∈ regex.sites := by
  rw [Regex.quantifiers, List.mem_filterMap]
  constructor
  · rintro ⟨site, present, same⟩
    cases site with
    | plain token => simp [Site.quantifier?] at same
    | operator found =>
      obtain rfl := Option.some.inj same
      exact present
  · exact fun present => ⟨_, present, rfl⟩

theorem Quantifier.map_token_sites (quantifier : Quantifier) :
    quantifier.sites.map Site.token = quantifier.tokens := by
  cases marked : quantifier.lazy <;>
    simp [Quantifier.sites, Quantifier.tokens, Site.token, marked]

theorem map_token_plain (tokens : List Token) :
    (tokens.map Site.plain).map Site.token = tokens := by
  rw [List.map_map]
  exact List.map_id tokens

mutual

/-- The sites of a regex are its tokens. -/
theorem Regex.map_token_sites (regex : Regex) : regex.sites.map Site.token = regex.tokens := by
  cases regex with
  | single sequence => exact sequence.map_token_sites
  | alternate sequence pipe rest =>
    simp [Regex.sites, Regex.tokens, Site.token, sequence.map_token_sites, rest.map_token_sites]

/-- The sites of a sequence are its tokens. -/
theorem Sequence.map_token_sites (sequence : Sequence) :
    sequence.sites.map Site.token = sequence.tokens := by
  cases sequence with
  | empty => rfl
  | last expr => exact expr.map_token_sites
  | link expr tail =>
    simp [Sequence.sites, Sequence.tokens, expr.map_token_sites, tail.map_token_sites]

/-- The sites of an expression are its tokens. -/
theorem Expr.map_token_sites (expr : Expr) : expr.sites.map Site.token = expr.tokens := by
  cases expr with
  | mk term quantifier =>
    cases quantifier with
    | none => exact term.map_token_sites
    | some quantifier =>
      simp [Expr.sites, Expr.tokens, term.map_token_sites, quantifier.map_token_sites]

/-- The sites of a term are its tokens. -/
theorem Term.map_token_sites (term : Term) : term.sites.map Site.token = term.tokens := by
  cases term with
  | atom token => rfl
  | group opening regex closing =>
    simp [Term.sites, Term.tokens, Site.token, regex.map_token_sites]
  | charClass opening negation members closing => exact map_token_plain _

end

/-- The operator of every quantifier is one of the tokens. -/
theorem Regex.operator_mem_tokens {regex : Regex} {quantifier : Quantifier}
    (present : quantifier ∈ regex.quantifiers) : quantifier.operator ∈ regex.tokens := by
  rw [← regex.map_token_sites]
  exact List.mem_map_of_mem (Regex.mem_quantifiers.mp present)

/-- The quantifiers among the sites conform. -/
def QuantifiersConform (sites : List Site) : Prop :=
  ∀ quantifier, .operator quantifier ∈ sites → quantifier.Conforms

mutual

/-- The quantifiers of a conforming regex conform. -/
theorem Regex.Conforms.quantifiers {nesting : Nat} {regex : Regex}
    (conforms : regex.Conforms nesting) : QuantifiersConform regex.sites := by
  intro quantifier present
  cases regex with
  | single sequence =>
    simp only [Regex.Conforms, Regex.sites] at conforms present
    exact Sequence.Conforms.quantifiers conforms quantifier present
  | alternate sequence pipe rest =>
    simp only [Regex.Conforms, Regex.sites, List.mem_append, List.mem_cons, reduceCtorEq,
      false_or] at conforms present
    rcases present with present | present
    · exact Sequence.Conforms.quantifiers conforms.1 quantifier present
    · exact Regex.Conforms.quantifiers conforms.2.2 quantifier present

/-- The quantifiers of a conforming sequence conform. -/
theorem Sequence.Conforms.quantifiers {nesting : Nat} {sequence : Sequence}
    (conforms : sequence.Conforms nesting) : QuantifiersConform sequence.sites := by
  intro quantifier present
  cases sequence with
  | empty => simp [Sequence.sites] at present
  | last expr =>
    simp only [Sequence.Conforms, Sequence.sites] at conforms present
    exact Expr.Conforms.quantifiers conforms quantifier present
  | link expr tail =>
    simp only [Sequence.Conforms, Sequence.sites, List.mem_append] at conforms present
    rcases present with present | present
    · exact Expr.Conforms.quantifiers conforms.1 quantifier present
    · exact Sequence.Conforms.quantifiers conforms.2 quantifier present

/-- The quantifiers of a conforming expression conform. -/
theorem Expr.Conforms.quantifiers {nesting : Nat} {expr : Expr}
    (conforms : expr.Conforms nesting) : QuantifiersConform expr.sites := by
  intro quantifier present
  cases expr with
  | mk term applied =>
    simp only [Expr.Conforms] at conforms
    cases applied with
    | none =>
      simp only [Expr.sites] at present
      exact Term.Conforms.quantifiers conforms.1 quantifier present
    | some applied =>
      simp only [Expr.sites, List.mem_append] at present
      rcases present with present | present
      · exact Term.Conforms.quantifiers conforms.1 quantifier present
      · obtain rfl : quantifier = applied := by simpa [Quantifier.sites] using present
        exact conforms.2 quantifier rfl

/-- The quantifiers of a conforming term conform. -/
theorem Term.Conforms.quantifiers {nesting : Nat} {term : Term}
    (conforms : term.Conforms nesting) : QuantifiersConform term.sites := by
  intro quantifier present
  cases term with
  | atom token => simp [Term.sites] at present
  | group opening regex closing =>
    simp only [Term.Conforms] at conforms
    obtain ⟨_, _, fewer, _, body⟩ := conforms
    have inside : Site.operator quantifier ∈ regex.sites := by
      simpa [Term.sites] using present
    exact Regex.Conforms.quantifiers body quantifier inside
  | charClass opening negation members closing => simp [Term.sites] at present

end

/-- In a conforming regex the operator of every quantifier is of such a kind. -/
theorem Regex.Conforms.isOperator {nesting : Nat} {regex : Regex} {quantifier : Quantifier}
    (conforms : regex.Conforms nesting) (present : quantifier ∈ regex.quantifiers) :
    quantifier.operator.kind.IsOperator := by
  rw [(conforms.quantifiers quantifier (Regex.mem_quantifiers.mp present)).1]
  exact quantifier.repetition.operatorKind_isOperator

/-! ### Trees with other quantifiers -/

mutual

/-- A regex with other quantifiers. -/
def Regex.mapQuantifiers (f : Quantifier → Quantifier) : Regex → Regex
  | .single sequence => .single (sequence.mapQuantifiers f)
  | .alternate sequence pipe rest =>
    .alternate (sequence.mapQuantifiers f) pipe (rest.mapQuantifiers f)

/-- A sequence with other quantifiers. -/
def Sequence.mapQuantifiers (f : Quantifier → Quantifier) : Sequence → Sequence
  | .empty => .empty
  | .last expr => .last (expr.mapQuantifiers f)
  | .link expr tail => .link (expr.mapQuantifiers f) (tail.mapQuantifiers f)

/-- An expression with other quantifiers. -/
def Expr.mapQuantifiers (f : Quantifier → Quantifier) : Expr → Expr
  | .mk term quantifier => .mk (term.mapQuantifiers f) (quantifier.map f)

/-- A term with other quantifiers. -/
def Term.mapQuantifiers (f : Quantifier → Quantifier) : Term → Term
  | .atom token => .atom token
  | .group opening regex closing => .group opening (regex.mapQuantifiers f) closing
  | .charClass opening negation members closing =>
    .charClass opening negation members closing

end

section

variable {f : Quantifier → Quantifier}

mutual

/-- A regex conforms with other quantifiers if these conform. -/
theorem Regex.conforms_mapQuantifiers {nesting : Nat} {regex : Regex}
    (kept : ∀ quantifier, quantifier.Conforms → (f quantifier).Conforms)
    (conforms : regex.Conforms nesting) : (regex.mapQuantifiers f).Conforms nesting := by
  cases regex with
  | single sequence => exact Sequence.conforms_mapQuantifiers kept conforms
  | alternate sequence pipe rest =>
    exact ⟨Sequence.conforms_mapQuantifiers kept conforms.1, conforms.2.1,
      Regex.conforms_mapQuantifiers kept conforms.2.2⟩

/-- A sequence conforms with other quantifiers if these conform. -/
theorem Sequence.conforms_mapQuantifiers {nesting : Nat} {sequence : Sequence}
    (kept : ∀ quantifier, quantifier.Conforms → (f quantifier).Conforms)
    (conforms : sequence.Conforms nesting) : (sequence.mapQuantifiers f).Conforms nesting := by
  cases sequence with
  | empty => trivial
  | last expr => exact Expr.conforms_mapQuantifiers kept conforms
  | link expr tail =>
    exact ⟨Expr.conforms_mapQuantifiers kept conforms.1,
      Sequence.conforms_mapQuantifiers kept conforms.2⟩

/-- An expression conforms with other quantifiers if these conform. -/
theorem Expr.conforms_mapQuantifiers {nesting : Nat} {expr : Expr}
    (kept : ∀ quantifier, quantifier.Conforms → (f quantifier).Conforms)
    (conforms : expr.Conforms nesting) : (expr.mapQuantifiers f).Conforms nesting := by
  cases expr with
  | mk term quantifier =>
    refine ⟨Term.conforms_mapQuantifiers kept conforms.1, ?_⟩
    intro applied present
    obtain ⟨old, among, rfl⟩ := Option.map_eq_some_iff.mp present
    exact kept old (conforms.2 old among)

/-- A term conforms with other quantifiers if these conform. -/
theorem Term.conforms_mapQuantifiers {nesting : Nat} {term : Term}
    (kept : ∀ quantifier, quantifier.Conforms → (f quantifier).Conforms)
    (conforms : term.Conforms nesting) : (term.mapQuantifiers f).Conforms nesting := by
  cases term with
  | atom token => exact conforms
  | group opening regex closing =>
    obtain ⟨opens, closes, fewer, same, body⟩ := conforms
    exact ⟨opens, closes, fewer, same, Regex.conforms_mapQuantifiers kept body⟩
  | charClass opening negation members closing => exact conforms

end

mutual

/-- A canonical regex stays canonical with other quantifiers. -/
theorem Regex.canonical_mapQuantifiers {regex : Regex} (canonical : regex.Canonical) :
    (regex.mapQuantifiers f).Canonical := by
  cases regex with
  | single sequence => exact Sequence.canonical_mapQuantifiers canonical
  | alternate sequence pipe rest =>
    exact ⟨Sequence.canonical_mapQuantifiers canonical.1,
      Regex.canonical_mapQuantifiers canonical.2⟩

/-- A canonical sequence stays canonical with other quantifiers. -/
theorem Sequence.canonical_mapQuantifiers {sequence : Sequence}
    (canonical : sequence.Canonical) : (sequence.mapQuantifiers f).Canonical := by
  cases sequence with
  | empty => trivial
  | last expr => exact Expr.canonical_mapQuantifiers canonical
  | link expr tail =>
    refine ⟨Expr.canonical_mapQuantifiers canonical.1, ?_,
      Sequence.canonical_mapQuantifiers canonical.2.2⟩
    have filled := canonical.2.1
    cases tail with
    | empty => exact absurd rfl filled
    | last | link => simp [Sequence.mapQuantifiers]

/-- A canonical expression stays canonical with other quantifiers. -/
theorem Expr.canonical_mapQuantifiers {expr : Expr} (canonical : expr.Canonical) :
    (expr.mapQuantifiers f).Canonical := by
  cases expr with
  | mk term quantifier => exact Term.canonical_mapQuantifiers canonical

/-- A canonical term stays canonical with other quantifiers. -/
theorem Term.canonical_mapQuantifiers {term : Term} (canonical : term.Canonical) :
    (term.mapQuantifiers f).Canonical := by
  cases term with
  | atom token => trivial
  | group opening regex closing => exact Regex.canonical_mapQuantifiers canonical
  | charClass opening negation members closing => exact canonical

end

mutual

/-- A regex with other quantifiers has as many groups. -/
theorem Regex.groups_mapQuantifiers (regex : Regex) :
    (regex.mapQuantifiers f).groups = regex.groups := by
  cases regex with
  | single sequence => exact sequence.groups_mapQuantifiers
  | alternate sequence pipe rest =>
    simp [Regex.mapQuantifiers, Regex.groups, sequence.groups_mapQuantifiers,
      rest.groups_mapQuantifiers]

/-- A sequence with other quantifiers has as many groups. -/
theorem Sequence.groups_mapQuantifiers (sequence : Sequence) :
    (sequence.mapQuantifiers f).groups = sequence.groups := by
  cases sequence with
  | empty => rfl
  | last expr => exact expr.groups_mapQuantifiers
  | link expr tail =>
    simp [Sequence.mapQuantifiers, Sequence.groups, expr.groups_mapQuantifiers,
      tail.groups_mapQuantifiers]

/-- An expression with other quantifiers has as many groups. -/
theorem Expr.groups_mapQuantifiers (expr : Expr) :
    (expr.mapQuantifiers f).groups = expr.groups := by
  cases expr with
  | mk term quantifier => exact term.groups_mapQuantifiers

/-- A term with other quantifiers has as many groups. -/
theorem Term.groups_mapQuantifiers (term : Term) :
    (term.mapQuantifiers f).groups = term.groups := by
  cases term with
  | atom token => rfl
  | group opening regex closing => exact congrArg (· + 1) regex.groups_mapQuantifiers
  | charClass opening negation members closing => rfl

end

end

/-! ### Instructions of quantifiers -/

/-- Beside a repeated body, the quantifier stands where its split does. -/
def Quantifier.origins (quantifier : Quantifier) (body : List (Option Quantifier)) :
    List (Option Quantifier) :=
  match quantifier.repetition with
  | .zeroOrMore => some quantifier :: (body ++ [none])
  | .oneOrMore => body ++ [some quantifier]
  | .zeroOrOne => some quantifier :: body

mutual

/-- For each instruction of a regex, the quantifier that it is the split of. -/
def Regex.origins : Regex → List (Option Quantifier)
  | .single sequence => sequence.origins
  | .alternate sequence _ rest => none :: (sequence.origins ++ none :: rest.origins)

/-- For each instruction of a sequence, the quantifier that it is the split of. -/
def Sequence.origins : Sequence → List (Option Quantifier)
  | .empty => []
  | .last expr => expr.origins
  | .link expr tail => expr.origins ++ tail.origins

/-- For each instruction of an expression, the quantifier that it is the split of. -/
def Expr.origins : Expr → List (Option Quantifier)
  | .mk term none => term.origins
  | .mk term (some quantifier) => quantifier.origins term.origins

/-- For each instruction of a term, the quantifier that it is the split of. -/
def Term.origins : Term → List (Option Quantifier)
  | .atom _ => [none]
  | .group _ regex _ => none :: (regex.origins ++ [none])
  | .charClass _ _ _ _ => [none]

end

/-- If the instruction comes from a quantifier, it is a split of this quantifier. -/
def SplitsFor (inst : Inst Int) (origin : Option Quantifier) : Prop :=
  ∀ quantifier ∈ origin, ∃ body exit, inst = quantifier.split body exit

theorem splitsFor_none (inst : Inst Int) : SplitsFor inst none := by
  intro quantifier absent
  simp at absent

theorem Quantifier.splitsFor_split (quantifier : Quantifier) (body exit : Int) :
    SplitsFor (quantifier.split body exit) (some quantifier) := by
  rintro _ ⟨⟩
  exact ⟨body, exit, rfl⟩

/-- The origins of a repeated body fit its block if they do so within the body. -/
theorem Quantifier.layout_origins (quantifier : Quantifier) {body : Block}
    {origins : List (Option Quantifier)} (inner : List.Forall₂ SplitsFor body origins) :
    List.Forall₂ SplitsFor (quantifier.layout body) (quantifier.origins origins) := by
  rw [Quantifier.layout, Quantifier.origins]
  cases quantifier.repetition with
  | zeroOrMore =>
    exact .cons (quantifier.splitsFor_split _ _)
      (List.rel_append inner (.cons (splitsFor_none _) .nil))
  | oneOrMore => exact List.rel_append inner (.cons (quantifier.splitsFor_split _ _) .nil)
  | zeroOrOne => exact .cons (quantifier.splitsFor_split _ _) inner

mutual

/-- The origins of a regex fit its block. -/
theorem Regex.layout_origins (regex : Regex) (slots : Nat) :
    List.Forall₂ SplitsFor (regex.layout slots) regex.origins := by
  cases regex with
  | single sequence => exact sequence.layout_origins slots
  | alternate sequence pipe rest =>
    exact .cons (splitsFor_none _) (List.rel_append (sequence.layout_origins slots)
      (.cons (splitsFor_none _) (rest.layout_origins _)))

/-- The origins of a sequence fit its block. -/
theorem Sequence.layout_origins (sequence : Sequence) (slots : Nat) :
    List.Forall₂ SplitsFor (sequence.layout slots) sequence.origins := by
  cases sequence with
  | empty => exact .nil
  | last expr => exact expr.layout_origins slots
  | link expr tail =>
    exact List.rel_append (expr.layout_origins slots) (tail.layout_origins _)

/-- The origins of an expression fit its block. -/
theorem Expr.layout_origins (expr : Expr) (slots : Nat) :
    List.Forall₂ SplitsFor (expr.layout slots) expr.origins := by
  cases expr with
  | mk term quantifier =>
    cases quantifier with
    | none => exact term.layout_origins slots
    | some quantifier => exact quantifier.layout_origins (term.layout_origins slots)

/-- The origins of a term fit its block. -/
theorem Term.layout_origins (term : Term) (slots : Nat) :
    List.Forall₂ SplitsFor (term.layout slots) term.origins := by
  cases term with
  | atom token => exact .cons (splitsFor_none _) .nil
  | group opening regex closing =>
    exact .cons (splitsFor_none _) (List.rel_append (regex.layout_origins _)
      (.cons (splitsFor_none _) .nil))
  | charClass opening negation members closing => exact .cons (splitsFor_none _) .nil

end

/-- A quantifier has one operator among its tokens. -/
theorem Quantifier.filterMap_sites (quantifier : Quantifier) :
    quantifier.sites.filterMap Site.quantifier? = [quantifier] := by
  cases marked : quantifier.lazy <;> simp [Quantifier.sites, Site.quantifier?, marked]

theorem filterMap_quantifier?_plain (tokens : List Token) :
    (tokens.map Site.plain).filterMap Site.quantifier? = [] := by
  simp [List.filterMap_map, Function.comp_def, Site.quantifier?]

/-- A repeated body adds its quantifier once to the origins of the body. -/
theorem Quantifier.origins_perm (quantifier : Quantifier) {origins : List (Option Quantifier)}
    {inner : List Quantifier} (same : origins.reduceOption.Perm inner) :
    (quantifier.origins origins).reduceOption.Perm (inner ++ [quantifier]) := by
  rw [Quantifier.origins]
  cases quantifier.repetition with
  | zeroOrMore =>
    simpa [List.reduceOption_append] using
      (same.cons quantifier).trans (List.perm_append_singleton quantifier inner).symm
  | oneOrMore => simpa [List.reduceOption_append] using same.append_right [quantifier]
  | zeroOrOne =>
    simpa using (same.cons quantifier).trans (List.perm_append_singleton quantifier inner).symm

mutual

/-- The quantifiers among the origins of a regex are those of its operators. -/
theorem Regex.origins_perm (regex : Regex) :
    regex.origins.reduceOption.Perm (regex.sites.filterMap Site.quantifier?) := by
  cases regex with
  | single sequence => exact sequence.origins_perm
  | alternate sequence pipe rest =>
    simpa [Regex.origins, Regex.sites, Site.quantifier?, List.reduceOption_append,
      List.filterMap_cons] using sequence.origins_perm.append rest.origins_perm

/-- The quantifiers among the origins of a sequence are those of its operators. -/
theorem Sequence.origins_perm (sequence : Sequence) :
    sequence.origins.reduceOption.Perm (sequence.sites.filterMap Site.quantifier?) := by
  cases sequence with
  | empty => exact .nil
  | last expr => exact expr.origins_perm
  | link expr tail =>
    simpa [Sequence.origins, Sequence.sites, List.reduceOption_append] using
      expr.origins_perm.append tail.origins_perm

/-- The quantifiers among the origins of an expression are those of its operators. -/
theorem Expr.origins_perm (expr : Expr) :
    expr.origins.reduceOption.Perm (expr.sites.filterMap Site.quantifier?) := by
  cases expr with
  | mk term quantifier =>
    cases quantifier with
    | none => exact term.origins_perm
    | some quantifier =>
      simpa [Expr.origins, Expr.sites, quantifier.filterMap_sites] using
        quantifier.origins_perm term.origins_perm

/-- The quantifiers among the origins of a term are those of its operators. -/
theorem Term.origins_perm (term : Term) :
    term.origins.reduceOption.Perm (term.sites.filterMap Site.quantifier?) := by
  cases term with
  | atom token => exact .nil
  | group opening regex closing =>
    simpa [Term.origins, Term.sites, Site.quantifier?, List.reduceOption_append,
      List.filterMap_cons] using regex.origins_perm
  | charClass opening negation members closing =>
    rw [Term.sites, filterMap_quantifier?_plain]
    exact .nil

end

/-- The quantifiers of a tree differ if its tokens end in different places. -/
theorem Regex.nodup_quantifiers {regex : Regex}
    (distinct : (regex.tokens.map fun token => token.span.stop).Nodup) :
    regex.quantifiers.Nodup := by
  rw [← regex.map_token_sites, List.map_map] at distinct
  refine List.Nodup.filterMap ?_ (List.Nodup.of_map _ distinct)
  intro site other quantifier first second
  cases site <;> cases other <;> simp_all [Site.quantifier?]

/-- A quantifier of a tree whose tokens end in different places has one instruction. -/
theorem Regex.exists_origin {regex : Regex}
    (distinct : (regex.tokens.map fun token => token.span.stop).Nodup)
    {quantifier : Quantifier} (present : quantifier ∈ regex.quantifiers) :
    ∃ index : Nat, regex.origins[index]? = some (some quantifier) ∧
      ∀ other : Nat, regex.origins[other]? = some (some quantifier) → other = index := by
  have among : some quantifier ∈ regex.origins := by
    rw [← List.reduceOption_mem_iff, regex.origins_perm.mem_iff]
    exact present
  obtain ⟨index, found⟩ := List.mem_iff_getElem?.mp among
  refine ⟨index, found, fun other again => ?_⟩
  have once : regex.origins.reduceOption.Nodup :=
    regex.origins_perm.nodup_iff.mpr (nodup_quantifiers distinct)
  have apart := List.pairwise_iff_getElem.mp (List.pairwise_filterMap.mp once)
  obtain ⟨inside, here⟩ := List.getElem?_eq_some_iff.mp found
  obtain ⟨inside', there⟩ := List.getElem?_eq_some_iff.mp again
  rcases Nat.lt_trichotomy other index with less | same | more
  · exact absurd rfl (apart other index inside' inside less _ there _ here)
  · exact same
  · exact absurd rfl (apart index other inside inside' more _ here _ there)

end RegexCompiler
