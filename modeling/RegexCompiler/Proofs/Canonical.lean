import RegexCompiler.Proofs.Soundness

/-!
# The trees that parsing builds

The types of trees admit more than parsing builds. A chain may end in an explicit empty
tail, and members of a class may keep apart a literal, a `-` and a literal that make a
range. A tree is canonical if neither occurs in it.

Chains come out canonical because they are built from lists. Members do because the loop
between brackets looks two tokens ahead: a literal becomes a member of its own only if no
`-` follows it, or if the `-` is not followed by a literal. The loop forgets this once it
goes around, so its invariant remembers what the last members rule out for the tokens
under the cursor.
-/

namespace RegexCompiler

/-! ### Segments of a class -/

/-- A member begins with a literal. -/
def Member.StartsLiteral : Member → Prop
  | .single token => token.kind = .literal
  | .range low _ => low.kind = .literal

/-- A member is a literal on its own. -/
def Member.IsLiteral (member : Member) : Prop :=
  ∃ token, member = .single token ∧ token.kind = .literal

/-- A member is a `-` on its own. -/
def Member.IsMinus (member : Member) : Prop :=
  ∃ token, member = .single token ∧ token.kind = .minus

/-- No literal, `-` and literal in a row are members of their own. -/
def Segmented (members : List Member) : Prop :=
  ∀ before low minus high after, members = before ++ low :: minus :: high :: after →
    low.IsLiteral → minus.IsMinus → ¬ high.StartsLiteral

/-- The members that tokens between brackets make: from left to right a literal, a `-` and
a literal are a range, and any other token is a member of its own. -/
def segments : List Token → List Member
  | low :: minus :: high :: rest =>
    if low.kind = .literal ∧ minus.kind = .minus ∧ high.kind = .literal then
      .range low high :: segments rest
    else .single low :: segments (minus :: high :: rest)
  | token :: rest => .single token :: segments rest
  | [] => []

/-- What follows the first member is segmented if all members are. -/
theorem Segmented.tail {member : Member} {others : List Member}
    (segmented : Segmented (member :: others)) : Segmented others := by
  intro before low minus high after split
  exact segmented (member :: before) low minus high after (by rw [split]; rfl)

/-- A member may be put behind segmented members if it does not complete a range. -/
theorem Segmented.append_singleton {members : List Member} {last : Member}
    (segmented : Segmented members)
    (apart : ∀ before low minus, members = before ++ [low, minus] → low.IsLiteral →
      minus.IsMinus → ¬ last.StartsLiteral) : Segmented (members ++ [last]) := by
  intro before low minus high after split isLiteral isMinus
  rcases List.eq_nil_or_concat after with rfl | ⟨front, final, rfl⟩
  · obtain ⟨same, rest⟩ := List.append_inj' (show members ++ [last] =
      (before ++ [low, minus]) ++ [high] by simpa using split) rfl
    obtain rfl := List.singleton_inj.mp rest
    exact apart before low minus same isLiteral isMinus
  · have same := List.append_inj_left' (show members ++ [last] =
      (before ++ low :: minus :: high :: front) ++ [final] by simpa using split) rfl
    exact segmented before low minus high front same isLiteral isMinus

/-- A token is a segment of its own if no range begins with it. -/
theorem segments_cons_single (token : Token) (rest : List Token)
    (alone : ∀ minus high others, rest = minus :: high :: others → token.kind = .literal →
      minus.kind = .minus → high.kind ≠ .literal) :
    segments (token :: rest) = .single token :: segments rest := by
  match rest with
  | [] => rfl
  | [_] => rfl
  | minus :: high :: others =>
    rw [segments, if_neg]
    rintro ⟨literal, dash, bound⟩
    exact alone minus high others rfl literal dash bound

/-- The tokens are read as members: each is a literal or a `-` on its own, or a range takes
two literals with a `-` between them. -/
inductive Reading : List Token → List Member → Prop where
  | nil : Reading [] []
  | single {token : Token} {rest : List Token} {others : List Member}
      (alone : token.kind = .literal ∨ token.kind = .minus) (later : Reading rest others) :
      Reading (token :: rest) (.single token :: others)
  | range {low minus high : Token} {rest : List Token} {others : List Member}
      (isLow : low.kind = .literal) (isMinus : minus.kind = .minus) (isHigh : high.kind = .literal)
      (later : Reading rest others) :
      Reading (low :: minus :: high :: rest) (.range low high :: others)

/-- A reading that begins with a literal begins with a member that does. -/
theorem Reading.startsLiteral {token : Token} {rest : List Token} {members : List Member}
    (reading : Reading (token :: rest) members) (literal : token.kind = .literal) :
    ∃ member others, members = member :: others ∧ member.StartsLiteral := by
  cases reading with
  | single alone later => exact ⟨_, _, rfl, literal⟩
  | range isLow isMinus isHigh later => exact ⟨_, _, rfl, literal⟩

/-- Segmented members are the segments of the tokens they are read from. -/
theorem Reading.segments_eq {tokens : List Token} {members : List Member}
    (reading : Reading tokens members) (segmented : Segmented members) :
    segments tokens = members := by
  induction reading with
  | nil => rfl
  | range isLow isMinus isHigh later inductionHypothesis =>
    rw [segments, if_pos ⟨isLow, isMinus, isHigh⟩, inductionHypothesis segmented.tail]
  | @single token rest others alone later inductionHypothesis =>
    rw [segments_cons_single, inductionHypothesis segmented.tail]
    -- a `-` and a literal behind the token would have to be members of their own
    rintro minus high more rfl literal isMinus follows
    cases later with
    | range isLow _ _ _ => simp [isMinus] at isLow
    | single _ behind =>
      obtain ⟨member, remaining, rfl, starts⟩ := behind.startsLiteral follows
      exact segmented [] _ _ member remaining rfl ⟨token, rfl, literal⟩ ⟨minus, rfl, isMinus⟩ starts

/-- The tokens of conforming members are read as these members. -/
theorem reading_tokens (members : List Member) (conform : ∀ member ∈ members, member.Conforms) :
    Reading (members.flatMap Member.tokens) members := by
  induction members with
  | nil => exact .nil
  | cons member others inductionHypothesis =>
    obtain ⟨head, tail⟩ := List.forall_mem_cons.mp conform
    cases member with
    | single token => exact .single head (inductionHypothesis tail)
    | range low high => exact .range head.1 rfl head.2 (inductionHypothesis tail)

/-- Segmented members are the segments of their tokens. -/
theorem segments_tokens (members : List Member) (conform : ∀ member ∈ members, member.Conforms)
    (segmented : Segmented members) : segments (members.flatMap Member.tokens) = members :=
  (reading_tokens members conform).segments_eq segmented

/-! ### Canonical trees -/

/-- The chain has no empty tail and its members are segmented. -/
def Members.Canonical (members : Members) : Prop :=
  members = .ofList members.toList ∧ Segmented members.toList

mutual

/-- No chain in the regex has an empty tail, and all its classes are segmented. -/
def Regex.Canonical : Regex → Prop
  | .single sequence => sequence.Canonical
  | .alternate sequence _ rest => sequence.Canonical ∧ rest.Canonical

/-- As for a regex, of a sequence. -/
def Sequence.Canonical : Sequence → Prop
  | .empty => True
  | .last expr => expr.Canonical
  | .link expr tail => expr.Canonical ∧ tail ≠ .empty ∧ tail.Canonical

/-- As for a regex, of an expression. -/
def Expr.Canonical : Expr → Prop
  | .mk term _ => term.Canonical

/-- As for a regex, of a term. -/
def Term.Canonical : Term → Prop
  | .atom _ => True
  | .group _ regex _ => regex.Canonical
  | .charClass _ _ members _ => members.Canonical

end

/-- Two or more expressions make a link. -/
theorem Sequence.ofList_cons_cons (expr next : Expr) (others : List Expr) :
    Sequence.ofList (expr :: next :: others) = .link expr (.ofList (next :: others)) := rfl

/-- Canonical expressions make a canonical chain. -/
theorem Sequence.canonical_ofList (exprs : List Expr) (all : ∀ expr ∈ exprs, expr.Canonical) :
    (Sequence.ofList exprs).Canonical := by
  induction exprs with
  | nil => trivial
  | cons expr others inductionHypothesis =>
    obtain ⟨first, later⟩ := List.forall_mem_cons.mp all
    cases others with
    | nil => exact first
    | cons next rest =>
      rw [Sequence.ofList_cons_cons, Sequence.Canonical]
      refine ⟨first, ?_, inductionHypothesis later⟩
      cases rest <;> simp [Sequence.ofList, Sequence.cons]

/-- Canonical sequences make a canonical regex. -/
theorem Regex.canonical_behind (earlier : List (Sequence × Token)) (rest : Regex)
    (branches : ∀ branch ∈ earlier, branch.1.Canonical) (last : rest.Canonical) :
    (Regex.behind earlier rest).Canonical := by
  induction earlier generalizing rest with
  | nil => exact last
  | cons branch others inductionHypothesis =>
    obtain ⟨first, later⟩ := List.forall_mem_cons.mp branches
    exact inductionHypothesis _ later ⟨first, last⟩

/-- Segmented members make a canonical chain. -/
theorem Members.canonical_ofList (members : List Member) (segmented : Segmented members) :
    (Members.ofList members).Canonical := by
  rw [Members.Canonical, Members.toList_ofList]
  exact ⟨rfl, segmented⟩

namespace Parser

/-! ### Parsing builds canonical trees -/

/-- If the reply accepts, its value is valid. -/
def Reply.Yields {α : Type} (valid : α → Prop) : Reply α → Prop
  | .accepted value _ => valid value
  | .rejected _ _ => True
  | .broken _ => True

/-- A rule after a rule yields what the second does. -/
theorem Reply.Yields.andThen {α β : Type} {valid : α → Prop} {result : β → Prop}
    {reply : Reply α} {proceed : α → Cursor → Reply β} (first : reply.Yields valid)
    (next : ∀ value after, valid value → (proceed value after).Yields result) :
    (reply.andThen proceed).Yields result := by
  cases reply with
  | accepted value after => exact next value after first
  | rejected error stop => trivial
  | broken fault => trivial

/-- The members found so far, latest first, are segmented. Behind a literal on its own no
`-` and literal are ahead, and behind a literal and a `-` no literal is. -/
structure Separates (found : List Member) (cursor : Cursor) : Prop where
  segmented : Segmented found.reverse
  behindLiteral : ∀ low others, found = low :: others → low.IsLiteral →
    cursor.token.kind = .minus → cursor.advance.token.kind ≠ .literal
  behindMinus : ∀ minus low others, found = minus :: low :: others → minus.IsMinus →
    low.IsLiteral → cursor.token.kind ≠ .literal

/-- A token put back has the token it displaced behind it. -/
theorem Cursor.unget_eq_ok {cursor back : Cursor} {token : Token}
    (restored : cursor.unget token = .ok back) :
    back.token = token ∧ back.advance.token = cursor.token := by
  rw [Cursor.unget, Scanner.pushback] at restored
  split at restored
  · simp [Except.map] at restored
  · obtain rfl := Except.ok.inj restored
    exact ⟨rfl, rfl⟩

/-- A member that begins with a literal takes a `-` and a literal behind it along. -/
theorem literalMember_longest {cursor after : Cursor} {member : Member}
    (literal : cursor.token.kind = .literal)
    (read : literalMember cursor = .accepted member after) :
    member.StartsLiteral ∧ (member.IsLiteral → after.token.kind = .minus →
      after.advance.token.kind ≠ .literal) := by
  simp only [literalMember] at read
  split at read
  · split at read
    · obtain ⟨rfl, rfl⟩ : Member.range _ _ = member ∧ _ = after := by simpa using read
      refine ⟨literal, ?_⟩
      rintro ⟨token, same, _⟩
      simp at same
    · rename_i noLiteral
      split at read
      · rename_i back restored
        obtain ⟨rfl, rfl⟩ : Member.single _ = member ∧ back = after := by simpa using read
        obtain ⟨_, behind⟩ := Cursor.unget_eq_ok restored
        exact ⟨literal, fun _ _ => behind ▸ noLiteral⟩
      · simp at read
  · rename_i noMinus
    obtain ⟨rfl, rfl⟩ : Member.single _ = member ∧ _ = after := by simpa using read
    exact ⟨literal, fun _ minus => absurd minus noMinus⟩

/-- The invariant of the loop between brackets holds behind a member that begins with a
literal. -/
theorem Separates.literalMember {found : List Member} {cursor after : Cursor} {member : Member}
    (separates : Separates found cursor) (literal : cursor.token.kind = .literal)
    (read : literalMember cursor = .accepted member after) :
    Separates (member :: found) after := by
  obtain ⟨starts, longest⟩ := literalMember_longest literal read
  refine ⟨?_, ?_, ?_⟩
  · rw [List.reverse_cons]
    refine separates.segmented.append_singleton ?_
    intro before low minus same isLiteral isMinus _
    have latest : found = minus :: low :: before.reverse := by
      rw [← List.reverse_reverse found, same]
      simp
    exact separates.behindMinus minus low _ latest isMinus isLiteral literal
  · rintro low others same isLiteral
    obtain ⟨rfl, rfl⟩ := List.cons.inj same
    exact longest isLiteral
  · rintro minus low others same ⟨token, rfl, isMinus⟩
    obtain ⟨rfl, rfl⟩ := List.cons.inj same
    simp [Member.StartsLiteral, isMinus] at starts

/-- The invariant of the loop between brackets holds behind a `-`. -/
theorem Separates.minus {found : List Member} {cursor : Cursor}
    (separates : Separates found cursor) (minus : cursor.token.kind = .minus) :
    Separates (.single cursor.token :: found) cursor.advance := by
  refine ⟨?_, ?_, ?_⟩
  · rw [List.reverse_cons]
    refine separates.segmented.append_singleton ?_
    intro before low dash same isLiteral isMinus starts
    simp [Member.StartsLiteral, minus] at starts
  · rintro low others same ⟨token, rfl, literal⟩
    obtain ⟨rfl, rfl⟩ : cursor.token = token ∧ found = others := by simpa using same
    simp [minus] at literal
  · rintro dash low others same _ isLiteral
    obtain ⟨rfl, rfl⟩ := List.cons.inj same
    exact separates.behindLiteral low others rfl isLiteral minus

/-- The invariant of the loop between brackets holds where no member is found yet. -/
theorem separates_nil (cursor : Cursor) : Separates [] cursor := by
  refine ⟨?_, by simp, by simp⟩
  intro before low minus high after split
  simp at split

/-- The loop between brackets builds a canonical chain. -/
theorem members_yields (fuel : Nat) (found : List Member) (cursor : Cursor)
    (separates : Separates found cursor) :
    (members fuel found cursor).Yields Members.Canonical := by
  induction fuel generalizing found cursor with
  | zero => trivial
  | succ fuel inductionHypothesis =>
    rw [members]
    split
    · rename_i literal
      cases read : literalMember cursor with
      | accepted member after =>
        exact inductionHypothesis _ _ (separates.literalMember literal read)
      | rejected error stop => trivial
      | broken fault => trivial
    · split
      · rename_i minus
        exact inductionHypothesis _ _ (separates.minus minus)
      · exact Members.canonical_ofList _ separates.segmented

/-- A character class comes out canonical. -/
theorem charClass_yields (fuel : Nat) (cursor : Cursor) :
    (charClass fuel cursor).Yields Term.Canonical := by
  rw [charClass]
  apply (members_yields fuel [] _ (separates_nil _)).andThen
  intro members after canonical
  cases closed : after.expect .rightBracket with
  | accepted closing stop => exact canonical
  | rejected error stop => trivial
  | broken fault => trivial

/-- What the rules yield. -/
structure RulesYield (limit : Option Nat) (fuel : Nat) : Prop where
  regex : ∀ earlier cursor, (∀ branch ∈ earlier, branch.1.Canonical) →
    (Parser.regex limit fuel earlier cursor).Yields Regex.Canonical
  sequence : ∀ found cursor, (∀ expr ∈ found, expr.Canonical) →
    (Parser.sequence limit fuel found cursor).Yields Sequence.Canonical
  expr : ∀ cursor, (Parser.expr limit fuel cursor).Yields Expr.Canonical
  term : ∀ cursor, (Parser.term limit fuel cursor).Yields Term.Canonical

variable {limit : Option Nat} {fuel : Nat}

/-- A regex, given what the rules yield on less fuel. -/
theorem regex_yields (rules : RulesYield limit fuel) (earlier : List (Sequence × Token))
    (cursor : Cursor) (branches : ∀ branch ∈ earlier, branch.1.Canonical) :
    (regex limit (fuel + 1) earlier cursor).Yields Regex.Canonical := by
  rw [regex]
  apply (rules.sequence [] cursor (by simp)).andThen
  intro last after canonical
  split
  · exact rules.regex _ _ (List.forall_mem_cons.mpr ⟨canonical, branches⟩)
  · rw [Regex.ofBranches_reverse]
    exact Regex.canonical_behind earlier (.single last) branches canonical

/-- A sequence, given what the rules yield on less fuel. -/
theorem sequence_yields (rules : RulesYield limit fuel) (found : List Expr) (cursor : Cursor)
    (all : ∀ expr ∈ found, expr.Canonical) :
    (sequence limit (fuel + 1) found cursor).Yields Sequence.Canonical := by
  rw [sequence]
  split
  · exact Sequence.canonical_ofList _ (by simpa using all)
  · apply (rules.expr cursor).andThen
    intro expr after canonical
    exact rules.sequence _ _ (List.forall_mem_cons.mpr ⟨canonical, all⟩)

/-- An expression, given what the rules yield on less fuel. -/
theorem expr_yields (rules : RulesYield limit fuel) (cursor : Cursor) :
    (expr limit (fuel + 1) cursor).Yields Expr.Canonical := by
  rw [expr]
  apply (rules.term cursor).andThen
  intro term after canonical
  simp only [quantify]
  split <;> exact canonical

/-- A term, given what the rules yield on less fuel. -/
theorem term_yields (rules : RulesYield limit fuel) (cursor : Cursor) :
    (term limit (fuel + 1) cursor).Yields Term.Canonical := by
  rw [term]
  split
  · trivial
  · trivial
  · trivial
  · split
    · trivial
    · apply (rules.regex [] _ (by simp)).andThen
      intro regex after canonical
      cases closed : after.leave.expect .rightParen with
      | accepted closing stop => exact canonical
      | rejected error stop => trivial
      | broken fault => trivial
  · exact charClass_yields fuel cursor
  · trivial

/-- With any fuel, what a rule accepts is canonical. -/
theorem rulesYield (limit : Option Nat) (fuel : Nat) : RulesYield limit fuel := by
  induction fuel with
  | zero =>
    exact ⟨fun _ _ _ => trivial, fun _ _ _ => trivial, fun _ => trivial, fun _ => trivial⟩
  | succ fuel rules =>
    exact ⟨regex_yields rules, sequence_yields rules, expr_yields rules, term_yields rules⟩

/-- The tree of an accepted pattern is canonical. -/
theorem pattern_canonical {cursor stop : Cursor} {tree : Regex}
    (accepted : pattern limit fuel cursor = .accepted tree stop) : tree.Canonical := by
  obtain ⟨found, after, reply, closing⟩ := Reply.andThen_eq_accepted accepted
  obtain ⟨last, beyond, _, same⟩ := Reply.andThen_eq_accepted closing
  obtain ⟨rfl, rfl⟩ : found = tree ∧ beyond = stop := by simpa using same
  have yields := (rulesYield limit fuel).regex [] cursor (by simp)
  rwa [reply] at yields

end Parser

end RegexCompiler
