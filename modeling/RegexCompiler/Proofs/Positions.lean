import RegexCompiler.Proofs.Canonical
import RegexCompiler.Proofs.Layout

/-!
# Trees with other positions

Positions may be replaced throughout a tree without touching anything else. Moving them
all by the same distance yields the tree of a pattern that stands behind another text, and
replacing them all by zero leaves what two trees have in common if they differ only in
where their tokens stand.

The grammar, the shape of chains and the compiled code are about kinds and characters
alone, so they are the same for the tree with other positions. Its tokens are the old
tokens with other positions, also those that a range leaves out.
-/

namespace RegexCompiler

/-- A stretch with other positions. -/
def Span.mapPositions (f : Nat → Nat) (span : Span) : Span := ⟨f span.start, f span.stop⟩

/-- A token with other positions. -/
def Token.mapPositions (f : Nat → Nat) (token : Token) : Token :=
  ⟨token.kind, token.char, token.span.mapPositions f⟩

/-- A quantifier with other positions. -/
def Quantifier.mapPositions (f : Nat → Nat) (quantifier : Quantifier) : Quantifier :=
  ⟨quantifier.repetition, quantifier.operator.mapPositions f,
    quantifier.lazy.map (Token.mapPositions f)⟩

/-- A member with other positions. -/
def Member.mapPositions (f : Nat → Nat) : Member → Member
  | .single token => .single (token.mapPositions f)
  | .range low high => .range (low.mapPositions f) (high.mapPositions f)

/-- A chain of members with other positions. -/
def Members.mapPositions (f : Nat → Nat) : Members → Members
  | .empty => .empty
  | .last member => .last (member.mapPositions f)
  | .link member tail => .link (member.mapPositions f) (tail.mapPositions f)

mutual

/-- A regex with other positions. -/
def Regex.mapPositions (f : Nat → Nat) : Regex → Regex
  | .single sequence => .single (sequence.mapPositions f)
  | .alternate sequence pipe rest =>
    .alternate (sequence.mapPositions f) (pipe.mapPositions f) (rest.mapPositions f)

/-- A sequence with other positions. -/
def Sequence.mapPositions (f : Nat → Nat) : Sequence → Sequence
  | .empty => .empty
  | .last expr => .last (expr.mapPositions f)
  | .link expr tail => .link (expr.mapPositions f) (tail.mapPositions f)

/-- An expression with other positions. -/
def Expr.mapPositions (f : Nat → Nat) : Expr → Expr
  | .mk term quantifier => .mk (term.mapPositions f) (quantifier.map (Quantifier.mapPositions f))

/-- A term with other positions. -/
def Term.mapPositions (f : Nat → Nat) : Term → Term
  | .atom token => .atom (token.mapPositions f)
  | .group opening regex closing =>
    .group (opening.mapPositions f) (regex.mapPositions f) (closing.mapPositions f)
  | .charClass opening negation members closing =>
    .charClass (opening.mapPositions f) (negation.map (Token.mapPositions f))
      (members.mapPositions f) (closing.mapPositions f)

end

variable (f : Nat → Nat)

/-! ### Tokens -/

@[simp]
theorem Token.kind_mapPositions (token : Token) : (token.mapPositions f).kind = token.kind := rfl

theorem Member.tokens_mapPositions (member : Member) :
    (member.mapPositions f).tokens = member.tokens.map (Token.mapPositions f) := by
  cases member <;> rfl

/-- The members of a chain with other positions. -/
theorem Members.toList_mapPositions (members : Members) :
    (members.mapPositions f).toList = members.toList.map (Member.mapPositions f) := by
  induction members with
  | empty => rfl
  | last member => rfl
  | link member tail inductionHypothesis =>
    rw [Members.mapPositions, Members.toList_link, Members.toList_link, List.map_cons,
      inductionHypothesis]

theorem Members.tokens_mapPositions (members : Members) :
    (members.mapPositions f).tokens = members.tokens.map (Token.mapPositions f) := by
  simp only [Members.tokens, Members.toList_mapPositions, List.flatMap_map, List.map_flatMap,
    Member.tokens_mapPositions]

theorem Quantifier.tokens_mapPositions (quantifier : Quantifier) :
    (quantifier.mapPositions f).tokens = quantifier.tokens.map (Token.mapPositions f) := by
  cases marked : quantifier.lazy <;> simp [Quantifier.tokens, Quantifier.mapPositions, marked]

mutual

/-- The tokens of a regex with other positions. -/
theorem Regex.tokens_mapPositions (regex : Regex) :
    (regex.mapPositions f).tokens = regex.tokens.map (Token.mapPositions f) := by
  cases regex with
  | single sequence => exact sequence.tokens_mapPositions
  | alternate sequence pipe rest =>
    simp [Regex.mapPositions, Regex.tokens, sequence.tokens_mapPositions,
      rest.tokens_mapPositions]

/-- The tokens of a sequence with other positions. -/
theorem Sequence.tokens_mapPositions (sequence : Sequence) :
    (sequence.mapPositions f).tokens = sequence.tokens.map (Token.mapPositions f) := by
  cases sequence with
  | empty => rfl
  | last expr => exact expr.tokens_mapPositions
  | link expr tail =>
    simp [Sequence.mapPositions, Sequence.tokens, expr.tokens_mapPositions,
      tail.tokens_mapPositions]

/-- The tokens of an expression with other positions. -/
theorem Expr.tokens_mapPositions (expr : Expr) :
    (expr.mapPositions f).tokens = expr.tokens.map (Token.mapPositions f) := by
  cases expr with
  | mk term quantifier =>
    cases quantifier with
    | none => simp [Expr.mapPositions, Expr.tokens, term.tokens_mapPositions]
    | some quantifier =>
      simp [Expr.mapPositions, Expr.tokens, term.tokens_mapPositions,
        quantifier.tokens_mapPositions]

/-- The tokens of a term with other positions. -/
theorem Term.tokens_mapPositions (term : Term) :
    (term.mapPositions f).tokens = term.tokens.map (Token.mapPositions f) := by
  cases term with
  | atom token => rfl
  | group opening regex closing =>
    simp [Term.mapPositions, Term.tokens, regex.tokens_mapPositions]
  | charClass opening negation members closing =>
    cases negation <;> simp [Term.mapPositions, Term.tokens, members.tokens_mapPositions]

end

/-! ### Grammar and shape -/

theorem Member.conforms_mapPositions (member : Member) :
    (member.mapPositions f).Conforms ↔ member.Conforms := by
  cases member <;> exact Iff.rfl

theorem Quantifier.conforms_mapPositions (quantifier : Quantifier) :
    (quantifier.mapPositions f).Conforms ↔ quantifier.Conforms := by
  cases marked : quantifier.lazy <;>
    simp [Quantifier.mapPositions, Quantifier.Conforms, marked]

mutual

/-- A regex with other positions conforms as before. -/
theorem Regex.conforms_mapPositions (nesting : Nat) (regex : Regex) :
    (regex.mapPositions f).Conforms nesting ↔ regex.Conforms nesting := by
  cases regex with
  | single sequence => exact sequence.conforms_mapPositions nesting
  | alternate sequence pipe rest =>
    simp [Regex.mapPositions, Regex.Conforms, sequence.conforms_mapPositions nesting,
      rest.conforms_mapPositions nesting]

/-- A sequence with other positions conforms as before. -/
theorem Sequence.conforms_mapPositions (nesting : Nat) (sequence : Sequence) :
    (sequence.mapPositions f).Conforms nesting ↔ sequence.Conforms nesting := by
  cases sequence with
  | empty => exact Iff.rfl
  | last expr => exact expr.conforms_mapPositions nesting
  | link expr tail =>
    simp [Sequence.mapPositions, Sequence.Conforms, expr.conforms_mapPositions nesting,
      tail.conforms_mapPositions nesting]

/-- An expression with other positions conforms as before. -/
theorem Expr.conforms_mapPositions (nesting : Nat) (expr : Expr) :
    (expr.mapPositions f).Conforms nesting ↔ expr.Conforms nesting := by
  cases expr with
  | mk term quantifier =>
    cases quantifier <;>
      simp [Expr.mapPositions, Expr.Conforms, term.conforms_mapPositions nesting,
        Quantifier.conforms_mapPositions]

/-- A term with other positions conforms as before. -/
theorem Term.conforms_mapPositions (nesting : Nat) (term : Term) :
    (term.mapPositions f).Conforms nesting ↔ term.Conforms nesting := by
  cases term with
  | atom token => exact Iff.rfl
  | group opening regex closing =>
    have body (fewer : Nat) := regex.conforms_mapPositions fewer
    simp [Term.mapPositions, Term.Conforms, body]
  | charClass opening negation members closing =>
    simp [Term.mapPositions, Term.Conforms, Members.toList_mapPositions,
      Member.conforms_mapPositions]

end

/-- Members with other positions are segmented as before. -/
theorem segmented_mapPositions {members : List Member} (segmented : Segmented members) :
    Segmented (members.map (Member.mapPositions f)) := by
  have starts (member : Member) :
      (member.mapPositions f).StartsLiteral ↔ member.StartsLiteral := by
    cases member <;> exact Iff.rfl
  have single {member : Member} {token : Token} (same : member.mapPositions f = .single token) :
      ∃ old, member = .single old ∧ old.kind = token.kind := by
    cases member with
    | single old =>
      obtain rfl : old.mapPositions f = token := by simpa [Member.mapPositions] using same
      exact ⟨old, rfl, rfl⟩
    | range low high => simp [Member.mapPositions] at same
  intro before low minus high after split isLiteral isMinus
  obtain ⟨front, back, rfl, rfl, fromLow⟩ := List.map_eq_append_iff.mp split
  obtain ⟨low, back, rfl, rfl, fromMinus⟩ := List.map_eq_cons_iff.mp fromLow
  obtain ⟨minus, back, rfl, rfl, fromHigh⟩ := List.map_eq_cons_iff.mp fromMinus
  obtain ⟨high, rest, rfl, rfl, rfl⟩ := List.map_eq_cons_iff.mp fromHigh
  obtain ⟨token, same, literal⟩ := isLiteral
  obtain ⟨dash, same', isDash⟩ := isMinus
  obtain ⟨old, rfl, kind⟩ := single same
  obtain ⟨old', rfl, kind'⟩ := single same'
  rw [starts]
  exact segmented front (.single old) (.single old') high rest rfl
    ⟨old, rfl, kind.trans literal⟩ ⟨old', rfl, kind'.trans isDash⟩

/-- A list of members with other positions makes the chain with other positions. -/
theorem Members.ofList_map_mapPositions (members : List Member) :
    Members.ofList (members.map (Member.mapPositions f)) =
      (Members.ofList members).mapPositions f := by
  have built : (members.map (Member.mapPositions f)).foldr
      (fun member tail => some (Members.cons member tail)) none =
        (members.foldr (fun member tail => some (Members.cons member tail)) none).map
          (Members.mapPositions f) := by
    induction members with
    | nil => rfl
    | cons member others inductionHypothesis =>
      rw [List.map_cons, List.foldr_cons, inductionHypothesis, List.foldr_cons, Option.map_some]
      cases others.foldr (fun member tail => some (Members.cons member tail)) none <;> rfl
  rw [Members.ofList, built, Members.ofList]
  cases members.foldr (fun member tail => some (Members.cons member tail)) none <;> rfl

mutual

/-- A canonical regex stays canonical with other positions. -/
theorem Regex.canonical_mapPositions {regex : Regex} (canonical : regex.Canonical) :
    (regex.mapPositions f).Canonical := by
  cases regex with
  | single sequence => exact Sequence.canonical_mapPositions canonical
  | alternate sequence pipe rest =>
    exact ⟨Sequence.canonical_mapPositions canonical.1, Regex.canonical_mapPositions canonical.2⟩

/-- A canonical sequence stays canonical with other positions. -/
theorem Sequence.canonical_mapPositions {sequence : Sequence} (canonical : sequence.Canonical) :
    (sequence.mapPositions f).Canonical := by
  cases sequence with
  | empty => trivial
  | last expr => exact Expr.canonical_mapPositions canonical
  | link expr tail =>
    refine ⟨Expr.canonical_mapPositions canonical.1, ?_,
      Sequence.canonical_mapPositions canonical.2.2⟩
    have filled := canonical.2.1
    cases tail with
    | empty => exact absurd rfl filled
    | last | link => simp [Sequence.mapPositions]

/-- A canonical expression stays canonical with other positions. -/
theorem Expr.canonical_mapPositions {expr : Expr} (canonical : expr.Canonical) :
    (expr.mapPositions f).Canonical := by
  cases expr with
  | mk term quantifier => exact Term.canonical_mapPositions canonical

/-- A canonical term stays canonical with other positions. -/
theorem Term.canonical_mapPositions {term : Term} (canonical : term.Canonical) :
    (term.mapPositions f).Canonical := by
  cases term with
  | atom token => trivial
  | group opening regex closing => exact Regex.canonical_mapPositions canonical
  | charClass opening negation members closing =>
    refine ⟨?_, ?_⟩
    · rw [Members.toList_mapPositions, Members.ofList_map_mapPositions, ← canonical.1]
    · rw [Members.toList_mapPositions]
      exact segmented_mapPositions f canonical.2

end

/-! ### Code -/

theorem classInst_mapPositions (negation : Option Token) (members : Members) :
    classInst (negation.map (Token.mapPositions f)) (members.mapPositions f) =
      classInst negation members := by
  have bounds : Member.bounds ∘ Member.mapPositions f = Member.bounds := by
    funext member
    cases member <;> rfl
  cases negation <;> simp [classInst, Members.toList_mapPositions, bounds]

theorem Quantifier.layout_mapPositions (quantifier : Quantifier) (body : Block) :
    (quantifier.mapPositions f).layout body = quantifier.layout body := by
  have split (first second : Int) :
      (quantifier.mapPositions f).split first second = quantifier.split first second := by
    simp [Quantifier.split, Quantifier.isGreedy, Quantifier.mapPositions]
  simp only [Quantifier.layout, split]
  rfl

mutual

/-- A regex with other positions has as many groups. -/
theorem Regex.groups_mapPositions (regex : Regex) :
    (regex.mapPositions f).groups = regex.groups := by
  cases regex with
  | single sequence => exact sequence.groups_mapPositions
  | alternate sequence pipe rest =>
    simp [Regex.mapPositions, Regex.groups, sequence.groups_mapPositions,
      rest.groups_mapPositions]

/-- A sequence with other positions has as many groups. -/
theorem Sequence.groups_mapPositions (sequence : Sequence) :
    (sequence.mapPositions f).groups = sequence.groups := by
  cases sequence with
  | empty => rfl
  | last expr => exact expr.groups_mapPositions
  | link expr tail =>
    simp [Sequence.mapPositions, Sequence.groups, expr.groups_mapPositions,
      tail.groups_mapPositions]

/-- An expression with other positions has as many groups. -/
theorem Expr.groups_mapPositions (expr : Expr) :
    (expr.mapPositions f).groups = expr.groups := by
  cases expr with
  | mk term quantifier => exact term.groups_mapPositions

/-- A term with other positions has as many groups. -/
theorem Term.groups_mapPositions (term : Term) :
    (term.mapPositions f).groups = term.groups := by
  cases term with
  | atom token => rfl
  | group opening regex closing => exact congrArg (· + 1) regex.groups_mapPositions
  | charClass opening negation members closing => rfl

end

mutual

/-- A regex with other positions has the same block. -/
theorem Regex.layout_mapPositions (regex : Regex) (slots : Nat) :
    (regex.mapPositions f).layout slots = regex.layout slots := by
  cases regex with
  | single sequence => exact sequence.layout_mapPositions slots
  | alternate sequence pipe rest =>
    simp [Regex.mapPositions, Regex.layout, sequence.layout_mapPositions,
      sequence.groups_mapPositions, rest.layout_mapPositions]

/-- A sequence with other positions has the same block. -/
theorem Sequence.layout_mapPositions (sequence : Sequence) (slots : Nat) :
    (sequence.mapPositions f).layout slots = sequence.layout slots := by
  cases sequence with
  | empty => rfl
  | last expr => exact expr.layout_mapPositions slots
  | link expr tail =>
    simp [Sequence.mapPositions, Sequence.layout, expr.layout_mapPositions,
      expr.groups_mapPositions, tail.layout_mapPositions]

/-- An expression with other positions has the same block. -/
theorem Expr.layout_mapPositions (expr : Expr) (slots : Nat) :
    (expr.mapPositions f).layout slots = expr.layout slots := by
  cases expr with
  | mk term quantifier =>
    cases quantifier with
    | none => exact term.layout_mapPositions slots
    | some quantifier =>
      simp [Expr.mapPositions, Expr.layout, term.layout_mapPositions,
        quantifier.layout_mapPositions]

/-- A term with other positions has the same block. -/
theorem Term.layout_mapPositions (term : Term) (slots : Nat) :
    (term.mapPositions f).layout slots = term.layout slots := by
  cases term with
  | atom token => rfl
  | group opening regex closing =>
    simp [Term.mapPositions, Term.layout, regex.layout_mapPositions]
  | charClass opening negation members closing =>
    simp [Term.mapPositions, Term.layout, classInst_mapPositions]

end

/-- A regex with other positions has the same program. -/
theorem Regex.program_mapPositions (regex : Regex) :
    (regex.mapPositions f).program = regex.program := by
  rw [Regex.program_eq, Regex.program_eq, regex.layout_mapPositions, regex.groups_mapPositions]

end RegexCompiler
