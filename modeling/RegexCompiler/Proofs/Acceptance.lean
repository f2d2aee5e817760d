import RegexCompiler.Proofs.Soundness

/-!
# The parser accepts exactly the grammar

What the rules accept is derivable. For the other direction the derivation is
followed: on a stream that begins with a derivable list, the rule of the symbol
accepts and stops right behind that list, provided that the token there cannot
continue it. What may follow differs from symbol to symbol: an operator would
continue an expression, anything but `|`, `)` and the end of input would continue a
sequence, and a `|` would continue a regex.

Members of a class need no such care. The loop between brackets stops at the first
token that is neither a literal nor a `-`, and derivable members are made of these.
-/

namespace RegexCompiler

/-! ### How derivable lists begin and what they are made of -/

/-- Kinds that a term may begin with. -/
def Kind.StartsTerm (kind : Kind) : Prop :=
  kind.IsAtom ∨ kind = .leftParen ∨ kind = .leftBracket

/-- Kinds that members of a class are made of. -/
def Kind.IsMember (kind : Kind) : Prop := kind = .literal ∨ kind = .minus

instance (kind : Kind) : Decidable kind.IsMember :=
  inferInstanceAs (Decidable (kind = .literal ∨ kind = .minus))

/-- What is known of a derivable list before it is parsed. Terms and expressions are
not empty and begin as a term does, and so does a sequence that is not empty. -/
def Symbol.Shapes : Symbol → List Kind → Prop
  | .regex, _ => True
  | .sequence, kinds => ∀ kind ∈ kinds.head?, kind.StartsTerm
  | .expr, kinds => ∃ kind others, kinds = kind :: others ∧ kind.StartsTerm
  | .term, kinds => ∃ kind others, kinds = kind :: others ∧ kind.StartsTerm
  | .members, kinds => ∀ kind ∈ kinds, kind.IsMember

/-- Every derivable list has the shape of its symbol. -/
theorem Derives.shapes {symbol : Symbol} {nesting : Nat} {kinds : List Kind}
    (derivation : Derives symbol nesting kinds) : symbol.Shapes kinds := by
  induction derivation with
  | single sequence => trivial
  | alternate sequence rest => trivial
  | empty => simp [Symbol.Shapes]
  | link expr tail first others =>
    obtain ⟨kind, behind, rfl, starts⟩ := first
    intro found isHead
    obtain rfl : kind = found := by simpa using isHead
    exact starts
  | once term inner => exact inner
  | repeated term repeats inner =>
    obtain ⟨kind, behind, rfl, starts⟩ := inner
    exact ⟨kind, _, rfl, starts⟩
  | repeatedLazily term repeats inner =>
    obtain ⟨kind, behind, rfl, starts⟩ := inner
    exact ⟨kind, _, rfl, starts⟩
  | atom isAtom => exact ⟨_, _, rfl, .inl isAtom⟩
  | group regex inner => exact ⟨_, _, rfl, .inr (.inl rfl)⟩
  | charClass members inner => exact ⟨_, _, rfl, .inr (.inr rfl)⟩
  | negatedClass members inner => exact ⟨_, _, rfl, .inr (.inr rfl)⟩
  | noMember => simp [Symbol.Shapes]
  | literal others inner => exact List.forall_mem_cons.mpr ⟨.inl rfl, inner⟩
  | range others inner =>
    simp only [Symbol.Shapes, List.forall_mem_cons]
    exact ⟨.inl rfl, .inr rfl, .inl rfl, inner⟩
  | minus others inner => exact List.forall_mem_cons.mpr ⟨.inr rfl, inner⟩

namespace Parser

/-- A kind that starts a term does not end a sequence. -/
theorem endsSequence_of_startsTerm {kind : Kind} (starts : kind.StartsTerm) :
    endsSequence kind = false := by
  rcases starts with (rfl | rfl | rfl) | rfl | rfl <;> rfl

/-- A kind that starts a term is no operator. -/
theorem repetition?_of_startsTerm {kind : Kind} (starts : kind.StartsTerm) :
    repetition? kind = none := by
  rcases starts with (rfl | rfl | rfl) | rfl | rfl <;> rfl

/-- A kind that ends a sequence is no operator. -/
theorem repetition?_of_endsSequence {kind : Kind} (ends : endsSequence kind = true) :
    repetition? kind = none := by
  cases kind <;> simp_all [endsSequence, repetition?]

/-- Every operator stands for a repetition. -/
theorem repetition?_of_isOperator {kind : Kind} (repeats : kind.IsOperator) :
    ∃ repetition, repetition? kind = some repetition := by
  rcases repeats with rfl | rfl | rfl
  · exact ⟨.oneOrMore, rfl⟩
  · exact ⟨.zeroOrMore, rfl⟩
  · exact ⟨.zeroOrOne, rfl⟩

/-! ### Cursors in front of a stream -/

/-- The cursor stands at the given depth, with a free slot, in front of a tidy stream. -/
structure Cursor.Faces (cursor : Cursor) (depth : Nat) (stream : List Token) : Prop where
  free : cursor.scanner.held = none
  depth_eq : cursor.depth = depth
  stream_eq : cursor.stream = stream
  tidy : Tidy stream

/-- The current token is the first of the stream. -/
theorem Cursor.Faces.token_eq {cursor : Cursor} {depth : Nat} {token : Token}
    {others : List Token} (faces : cursor.Faces depth (token :: others)) :
    cursor.token = token :=
  (List.cons.inj faces.stream_eq).1

/-- A step forward leaves the rest of the stream ahead. -/
theorem Cursor.Faces.advance {cursor : Cursor} {depth : Nat} {token : Token}
    {others : List Token} (faces : cursor.Faces depth (token :: others))
    (live : token.kind ≠ .endOfInput) : cursor.advance.Faces depth others := by
  have stepped := (Cursor.step_of_stream faces.stream_eq live).2
  exact ⟨cursor.advance_held, faces.depth_eq, stepped, faces.tidy.tail⟩

/-- The reply accepts and stops in front of the given stream. -/
def Reply.Stops {α : Type} (depth : Nat) (stream : List Token) (reply : Reply α) : Prop :=
  ∃ value after, reply = .accepted value after ∧ after.Faces depth stream

/-- A rule after a rule stops where the second does. -/
theorem Reply.Stops.andThen {α β : Type} {inside depth : Nat} {stream rest : List Token}
    {reply : Reply α} {proceed : α → Cursor → Reply β} (first : reply.Stops inside stream)
    (next : ∀ value after, after.Faces inside stream → (proceed value after).Stops depth rest) :
    (reply.andThen proceed).Stops depth rest := by
  obtain ⟨value, after, rfl, faces⟩ := first
  exact next value after faces

/-- A required token that is there is stepped over. -/
theorem Cursor.Faces.expect {cursor : Cursor} {depth : Nat} {token : Token} {others : List Token}
    (faces : cursor.Faces depth (token :: others)) (kind : Kind) (same : token.kind = kind)
    (live : kind ≠ .endOfInput) : (cursor.expect kind).Stops depth others := by
  have current : cursor.token.kind = kind := faces.token_eq ▸ same
  exact ⟨cursor.token, cursor.advance, if_pos current, faces.advance (same ▸ live)⟩

/-- An optional token that is there is stepped over, and no other is. -/
theorem Cursor.Faces.accept {cursor : Cursor} {depth : Nat} {mark : Option Token}
    {rest : List Token} (faces : cursor.Faces depth (mark.toList ++ rest)) (kind : Kind)
    (live : kind ≠ .endOfInput) (marks : ∀ token ∈ mark, token.kind = kind)
    (others : ∀ token ∈ rest.head?, token.kind ≠ kind) :
    (cursor.accept kind).2.Faces depth rest := by
  cases mark with
  | some token =>
    have same := marks token rfl
    have current : cursor.token.kind = kind := faces.token_eq ▸ same
    rw [Cursor.accept, if_pos current]
    exact faces.advance (same ▸ live)
  | none =>
    have current : cursor.token.kind ≠ kind := by
      refine others cursor.token ?_
      rw [← List.nil_append rest, ← Option.toList_none, ← faces.stream_eq]
      rfl
    rw [Cursor.accept, if_neg current]
    exact faces

/-! ### Character classes -/

/-- The tokens of a conforming member are a literal, a `-`, or a range of them. -/
theorem isMember_of_mem_tokens {member : Member} (conforms : member.Conforms) (token : Token)
    (present : token ∈ member.tokens) : token.kind.IsMember := by
  cases member with
  | single other =>
    obtain rfl := List.mem_singleton.mp present
    exact conforms
  | range low high =>
    simp only [Member.tokens, List.mem_cons, List.not_mem_nil, or_false] at present
    rcases present with rfl | rfl | rfl
    · exact .inl conforms.1
    · exact .inr rfl
    · exact .inl conforms.2

/-- The loop between brackets stops at the first token that cannot be in a member. -/
theorem members_stops (fuel : Nat) (found : List Member) (cursor : Cursor)
    (free : cursor.scanner.held = none ∨ cursor.token.kind = .minus) (tidy : Tidy cursor.stream)
    (enough : cursor.stream.length ≤ fuel) :
    (members fuel found cursor).Stops cursor.depth
      (cursor.stream.dropWhile fun token => token.kind.IsMember) := by
  induction fuel generalizing found cursor with
  | zero => simp [Cursor.stream] at enough
  | succ fuel inductionHypothesis =>
    rw [members]
    split
    · rename_i literal
      obtain ⟨member, after, read, ready, depth, split, conforms⟩ :=
        literalMember_reads cursor literal tidy
      have nonempty : 0 < member.tokens.length := by
        cases member <;> simp [Member.tokens]
      rw [split] at tidy enough ⊢
      rw [List.length_append] at enough
      rw [List.dropWhile_append_of_pos
        (fun token present => decide_eq_true (isMember_of_mem_tokens conforms token present)),
        read, ← depth]
      exact inductionHypothesis (member :: found) after ready tidy.right_of_append (by omega)
    · rename_i notLiteral
      split
      · rename_i minus
        have split := cursor.stream_eq_cons_of_kind _ minus (by decide)
        rw [split] at tidy enough ⊢
        rw [List.length_cons] at enough
        rw [List.dropWhile_cons_of_pos (by simp [minus, Kind.IsMember])]
        exact inductionHypothesis (.single cursor.token :: found) cursor.advance
          (.inl cursor.advance_held) tidy.tail (by omega)
      · rename_i notMinus
        have stays : ¬ cursor.token.kind.IsMember := not_or.mpr ⟨notLiteral, notMinus⟩
        refine ⟨_, cursor, rfl, free.resolve_right notMinus, rfl, ?_, ?_⟩
        · rw [Cursor.stream, List.dropWhile_cons_of_neg (by simpa using stays)]
        · rw [Cursor.stream, List.dropWhile_cons_of_neg (by simpa using stays)]
          exact tidy

/-- A character class that is ahead is accepted. -/
theorem charClass_stops (fuel depth : Nat) (cursor : Cursor) (opening : Token)
    (caret : Option Token) (inner : List Token) (closing : Token) (rest : List Token)
    (faces : cursor.Faces depth (opening :: (caret.toList ++ (inner ++ closing :: rest))))
    (opens : opening.kind = .leftBracket) (negates : ∀ token ∈ caret, token.kind = .caret)
    (allMembers : ∀ token ∈ inner, token.kind.IsMember) (closes : closing.kind = .rightBracket)
    (enough : (inner ++ closing :: rest).length ≤ fuel) :
    (charClass fuel cursor).Stops depth rest := by
  have noCaret : ∀ token ∈ (inner ++ closing :: rest).head?, token.kind ≠ .caret := by
    intro token isHead
    cases inner with
    | nil =>
      obtain rfl : closing = token := by simpa using isHead
      simp [closes]
    | cons member others =>
      obtain rfl : member = token := by simpa using isHead
      rcases allMembers member List.mem_cons_self with literal | minus
      · simp [literal]
      · simp [minus]
  have negated := (faces.advance (by simp [opens])).accept .caret (by decide) negates noCaret
  obtain ⟨free, rfl, stream, tidy⟩ := negated
  have stops := members_stops fuel [] _ (.inl free) (stream ▸ tidy) (stream ▸ enough)
  have inside : ∀ token ∈ inner, decide token.kind.IsMember = true :=
    fun token present => decide_eq_true (allMembers token present)
  rw [stream, List.dropWhile_append_of_pos inside,
    List.dropWhile_cons_of_neg (by simp [closes, Kind.IsMember])] at stops
  apply stops.andThen
  intro members after facesAfter
  apply (facesAfter.expect .rightBracket closes (by decide)).andThen
  intro last stop facesStop
  exact ⟨_, stop, rfl, facesStop⟩

/-! ### Derivable lists are accepted -/

/-- In front of tokens of these kinds, with a token behind them of a kind that may
follow, the rule accepts and stops at that token. The groups that are open and those
the kinds have to spare make up the limit, and four steps for each token ahead, less
the slack, are enough. -/
def AcceptsOn {α : Type} (limit slack : Nat) (follows : Kind → Prop) (nesting : Nat)
    (kinds : List Kind) (fuel : Nat) (rule : Cursor → Reply α) : Prop :=
  ∀ (depth : Nat) (cursor : Cursor) (consumed : List Token) (follow : Token)
    (others : List Token), cursor.Faces depth (consumed ++ follow :: others) →
    consumed.map Token.kind = kinds → limit = depth + nesting →
    4 * (consumed ++ follow :: others).length ≤ fuel + slack → follows follow.kind →
    (rule cursor).Stops depth (follow :: others)

/-- The rule accepts on every fuel that is enough. -/
def Accepts {α : Type} (limit slack : Nat) (follows : Kind → Prop)
    (rule : Nat → Cursor → Reply α) (nesting : Nat) (kinds : List Kind) : Prop :=
  ∀ fuel, AcceptsOn limit slack follows nesting kinds fuel (rule fuel)

/-- Without fuel there is nothing to show, as at least one token is ahead. -/
theorem Accepts.of_succ {α : Type} {limit slack : Nat} {follows : Kind → Prop}
    {rule : Nat → Cursor → Reply α} {nesting : Nat} {kinds : List Kind} (small : slack < 4)
    (onMore : ∀ fuel, AcceptsOn limit slack follows nesting kinds (fuel + 1) (rule (fuel + 1))) :
    Accepts limit slack follows rule nesting kinds := by
  intro fuel
  cases fuel with
  | zero =>
    intro depth cursor consumed follow others faces spells spare enough
    simp only [List.length_append, List.length_cons] at enough
    omega
  | succ fuel => exact onMore fuel

/-- What the rule of each symbol accepts, with the kinds that may follow it. -/
def Completes (limit : Nat) : Symbol → Nat → List Kind → Prop
  | .regex => fun nesting kinds => ∀ earlier,
      Accepts limit 0 (fun kind => kind = .endOfInput ∨ kind = .rightParen)
        (fun fuel => regex (some limit) fuel earlier) nesting kinds
  | .sequence => fun nesting kinds => ∀ found,
      Accepts limit 1 (fun kind => endsSequence kind = true)
        (fun fuel => sequence (some limit) fuel found) nesting kinds
  | .expr => Accepts limit 2 (fun kind => repetition? kind = none) (expr (some limit))
  | .term => Accepts limit 3 (fun _ => True) (term (some limit))
  | .members => fun _ _ => True

/-- A lone sequence. -/
theorem Completes.single {limit nesting : Nat} {kinds : List Kind}
    (sequence : Completes limit .sequence nesting kinds) :
    Completes limit .regex nesting kinds := by
  intro earlier
  apply Accepts.of_succ (by decide)
  intro fuel depth cursor consumed follow others faces spells spare enough follows
  have ends : endsSequence follow.kind = true := by
    rcases follows with ended | closed
    · simp [ended, endsSequence]
    · simp [closed, endsSequence]
  apply (sequence [] fuel depth cursor consumed follow others faces spells spare enough
    ends).andThen
  intro last after facesAfter
  have noPipe : after.token.kind ≠ .pipe := by
    rw [facesAfter.token_eq]
    rcases follows with ended | closed
    · simp [ended]
    · simp [closed]
  rw [if_neg noPipe]
  exact ⟨_, after, rfl, facesAfter⟩

/-- A sequence before a `|` and further alternatives. -/
theorem Completes.alternate {limit nesting : Nat} {left right : List Kind}
    (sequence : Completes limit .sequence nesting left)
    (rest : Completes limit .regex nesting right) :
    Completes limit .regex nesting (left ++ .pipe :: right) := by
  intro earlier
  apply Accepts.of_succ (by decide)
  intro fuel depth cursor consumed follow others faces spells spare enough follows
  obtain ⟨first, tail, rfl, rfl, behind⟩ := List.map_eq_append_iff.mp spells
  obtain ⟨pipe, later, rfl, isPipe, rfl⟩ := List.map_eq_cons_iff.mp behind
  simp only [List.append_assoc, List.cons_append, List.length_append, List.length_cons]
    at faces enough
  apply (sequence [] fuel depth cursor first pipe (later ++ follow :: others) faces rfl spare
    (by simp; omega) (by simp [isPipe, endsSequence])).andThen
  intro last after facesAfter
  have current : after.token.kind = .pipe := facesAfter.token_eq ▸ isPipe
  rw [if_pos current]
  exact rest _ fuel depth after.advance later follow others
    (facesAfter.advance (by simp [isPipe])) rfl spare (by simp; omega) follows

/-- No expression. -/
theorem Completes.empty {limit nesting : Nat} : Completes limit .sequence nesting [] := by
  intro found
  apply Accepts.of_succ (by decide)
  intro fuel depth cursor consumed follow others faces spells spare enough follows
  obtain rfl := List.map_eq_nil_iff.mp spells
  have current : endsSequence cursor.token.kind = true := by
    rw [faces.token_eq]
    exact follows
  rw [sequence, if_pos current]
  exact ⟨_, cursor, rfl, faces⟩

/-- An expression before further expressions. -/
theorem Completes.link {limit nesting : Nat} {first others : List Kind}
    (derivation : Derives .expr nesting first) (behind : Derives .sequence nesting others)
    (expr : Completes limit .expr nesting first)
    (tail : Completes limit .sequence nesting others) :
    Completes limit .sequence nesting (first ++ others) := by
  intro found
  apply Accepts.of_succ (by decide)
  intro fuel depth cursor consumed follow beyond faces spells spare enough follows
  obtain ⟨kind, more, rfl, starts⟩ := derivation.shapes
  obtain ⟨front, back, rfl, spellsFront, rfl⟩ := List.map_eq_append_iff.mp spells
  obtain ⟨token, remaining, rfl, rfl, rfl⟩ := List.map_eq_cons_iff.mp spellsFront
  -- the token behind the expression is no operator
  obtain ⟨next, following, split, noOperator⟩ : ∃ next following,
      back ++ follow :: beyond = next :: following ∧ repetition? next.kind = none := by
    cases back with
    | nil => exact ⟨follow, beyond, rfl, repetition?_of_endsSequence follows⟩
    | cons next following =>
      exact ⟨next, _, rfl, repetition?_of_startsTerm (behind.shapes next.kind rfl)⟩
  rw [List.append_assoc] at faces enough
  rw [List.length_append, List.length_cons] at enough
  have current : endsSequence cursor.token.kind = false := by
    rw [faces.token_eq]
    exact endsSequence_of_startsTerm starts
  rw [Parser.sequence, current, if_neg Bool.false_ne_true]
  apply (expr fuel depth cursor (token :: remaining) next following (split ▸ faces) rfl spare
    (by rw [← split, List.length_append, List.length_cons]; omega) noOperator).andThen
  intro value after facesAfter
  exact tail _ fuel depth after back follow beyond (split ▸ facesAfter) rfl spare (by omega)
    follows

/-- An expression is accepted if its term is and the rest of it reads as a quantifier. -/
theorem Completes.expr {limit nesting : Nat} {kinds quantifier : List Kind}
    (term : Completes limit .term nesting kinds)
    (quantifies : ∀ (value : Term) (depth : Nat) (cursor : Cursor) (marks : List Token)
      (follow : Token) (others : List Token), cursor.Faces depth (marks ++ follow :: others) →
      marks.map Token.kind = quantifier → repetition? follow.kind = none →
      (quantify value cursor).2.Faces depth (follow :: others)) :
    Completes limit .expr nesting (kinds ++ quantifier) := by
  apply Accepts.of_succ (by decide)
  intro fuel depth cursor consumed follow others faces spells spare enough follows
  obtain ⟨front, marks, rfl, rfl, spellsMarks⟩ := List.map_eq_append_iff.mp spells
  obtain ⟨next, following, split⟩ : ∃ next following,
      marks ++ follow :: others = next :: following :=
    List.exists_cons_of_ne_nil (by simp)
  rw [List.append_assoc] at faces enough
  rw [List.length_append, split, List.length_cons] at enough
  apply (term fuel depth cursor front next following (split ▸ faces) rfl spare
    (by rw [List.length_append, List.length_cons]; omega) trivial).andThen
  intro value after facesAfter
  exact ⟨_, _, rfl, quantifies value depth after marks follow others (split ▸ facesAfter)
    spellsMarks follows⟩

/-- A token that is no operator leaves the term as it is. -/
theorem quantify_faces_of_none (value : Term) {depth : Nat} {cursor : Cursor} {follow : Token}
    {others : List Token} (faces : cursor.Faces depth (follow :: others))
    (noOperator : repetition? follow.kind = none) :
    (quantify value cursor).2.Faces depth (follow :: others) := by
  have current : repetition? cursor.token.kind = none := faces.token_eq ▸ noOperator
  simp only [quantify, current]
  exact faces

/-- An operator is stepped over, and so is the mark that makes it lazy. -/
theorem quantify_faces_of_isOperator (value : Term) {depth : Nat} {cursor : Cursor}
    {operator follow : Token} (mark : Option Token) {others : List Token}
    (faces : cursor.Faces depth (operator :: (mark.toList ++ follow :: others)))
    (repeats : operator.kind.IsOperator) (marks : ∀ token ∈ mark, token.kind = .question)
    (noOperator : repetition? follow.kind = none) :
    (quantify value cursor).2.Faces depth (follow :: others) := by
  obtain ⟨repetition, stands⟩ := repetition?_of_isOperator repeats
  have current : repetition? cursor.token.kind = some repetition := faces.token_eq ▸ stands
  have live : operator.kind ≠ .endOfInput := by
    rcases repeats with plus | star | question <;> simp [*]
  simp only [quantify, current]
  refine (faces.advance live).accept .question (by decide) marks ?_
  intro token isHead question
  obtain rfl : follow = token := by simpa using isHead
  simp [question, repetition?] at noOperator

/-- An atom. -/
theorem Completes.atom {limit nesting : Nat} {kind : Kind} (isAtom : kind.IsAtom) :
    Completes limit .term nesting [kind] := by
  apply Accepts.of_succ (by decide)
  intro fuel depth cursor consumed follow others faces spells spare enough follows
  obtain ⟨token, rfl, rfl⟩ := List.map_eq_singleton_iff.mp spells
  have live : token.kind ≠ .endOfInput := by
    rcases isAtom with literal | dot | escape <;> simp [*]
  have accepted : term (some limit) (fuel + 1) cursor =
      .accepted (.atom cursor.token) cursor.advance := by
    rw [← faces.token_eq] at isAtom
    rw [term]
    rcases isAtom with literal | dot | escape <;> simp [*]
  exact ⟨_, _, accepted, faces.advance live⟩

/-- A group around what fits one level deeper. -/
theorem Completes.group {limit nesting : Nat} {kinds : List Kind}
    (body : Completes limit .regex nesting kinds) :
    Completes limit .term (nesting + 1) (.leftParen :: (kinds ++ [.rightParen])) := by
  apply Accepts.of_succ (by decide)
  intro fuel depth cursor consumed follow others faces spells spare enough follows
  obtain ⟨opening, tail, rfl, opens, spellsTail⟩ := List.map_eq_cons_iff.mp spells
  obtain ⟨inner, last, rfl, rfl, spellsLast⟩ := List.map_eq_append_iff.mp spellsTail
  obtain ⟨closing, rfl, closes⟩ := List.map_eq_singleton_iff.mp spellsLast
  simp only [List.cons_append, List.append_assoc, List.nil_append, List.length_cons,
    List.length_append] at faces enough
  have current : cursor.token.kind = .leftParen := faces.token_eq ▸ opens
  have notFull : some limit ≠ some cursor.depth := by
    intro full
    have same := Option.some.inj full
    have depth := faces.depth_eq
    omega
  have entered : cursor.advance.enter.Faces (depth + 1) (inner ++ closing :: follow :: others) := by
    obtain ⟨free, rfl, stream, tidy⟩ := faces.advance (by simp [opens])
    exact ⟨free, rfl, stream, tidy⟩
  rw [term]
  simp only [current, if_neg notFull]
  apply (body [] fuel (depth + 1) cursor.advance.enter inner closing (follow :: others) entered
    rfl (by omega) (by simp; omega) (.inr closes)).andThen
  intro regex after facesAfter
  have left : after.leave.Faces depth (closing :: follow :: others) := by
    obtain ⟨free, deep, stream, tidy⟩ := facesAfter
    exact ⟨free, by simp [Cursor.leave, deep], stream, tidy⟩
  apply (left.expect .rightParen closes (by decide)).andThen
  intro last stop facesStop
  exact ⟨_, stop, rfl, facesStop⟩

/-- A character class, negated if a caret is there. -/
theorem Completes.charClass {limit nesting : Nat} {kinds : List Kind} (caret : Option Kind)
    (negates : ∀ kind ∈ caret, kind = .caret) (allMembers : ∀ kind ∈ kinds, kind.IsMember) :
    Completes limit .term nesting
      (.leftBracket :: (caret.toList ++ (kinds ++ [.rightBracket]))) := by
  apply Accepts.of_succ (by decide)
  intro fuel depth cursor consumed follow others faces spells spare enough follows
  obtain ⟨opening, tail, rfl, opens, spellsTail⟩ := List.map_eq_cons_iff.mp spells
  obtain ⟨marks, body, rfl, spellsMarks, spellsBody⟩ := List.map_eq_append_iff.mp spellsTail
  obtain ⟨inner, last, rfl, rfl, spellsLast⟩ := List.map_eq_append_iff.mp spellsBody
  obtain ⟨closing, rfl, closes⟩ := List.map_eq_singleton_iff.mp spellsLast
  obtain ⟨mark, rfl, isCaret⟩ : ∃ mark : Option Token, marks = mark.toList ∧
      ∀ token ∈ mark, token.kind = .caret := by
    cases caret with
    | none => exact ⟨none, List.map_eq_nil_iff.mp spellsMarks, by simp⟩
    | some kind =>
      obtain ⟨token, rfl, rfl⟩ := List.map_eq_singleton_iff.mp spellsMarks
      exact ⟨some token, rfl, by simpa using negates⟩
  simp only [List.cons_append, List.append_assoc, List.nil_append, List.length_cons,
    List.length_append] at faces enough
  have current : cursor.token.kind = .leftBracket := faces.token_eq ▸ opens
  rw [term]
  simp only [current]
  exact charClass_stops fuel depth cursor opening mark inner closing (follow :: others) faces
    opens isCaret (by simpa using allMembers) closes (by simp; omega)

/-- The rule of the symbol accepts every derivable list. -/
theorem completes_of_derives {limit nesting : Nat} {symbol : Symbol} {kinds : List Kind}
    (derivation : Derives symbol nesting kinds) : Completes limit symbol nesting kinds := by
  induction derivation with
  | single sequence inner => exact inner.single
  | alternate sequence rest first others => exact first.alternate others
  | empty => exact .empty
  | link expr tail first others => exact first.link expr tail others
  | @once nesting kinds term inner =>
    rw [← List.append_nil kinds]
    apply inner.expr
    intro value depth cursor marks follow others faces spells noOperator
    obtain rfl := List.map_eq_nil_iff.mp spells
    exact quantify_faces_of_none value faces noOperator
  | repeated term repeats inner =>
    apply inner.expr
    intro value depth cursor marks follow others faces spells noOperator
    obtain ⟨operator, rfl, rfl⟩ := List.map_eq_singleton_iff.mp spells
    exact quantify_faces_of_isOperator value none faces repeats (by simp) noOperator
  | repeatedLazily term repeats inner =>
    apply inner.expr
    intro value depth cursor marks follow others faces spells noOperator
    obtain ⟨operator, tail, rfl, rfl, spellsTail⟩ := List.map_eq_cons_iff.mp spells
    obtain ⟨mark, rfl, question⟩ := List.map_eq_singleton_iff.mp spellsTail
    exact quantify_faces_of_isOperator value (some mark) faces repeats (by simpa using question)
      noOperator
  | atom isAtom => exact .atom isAtom
  | group regex inner => exact inner.group
  | charClass members inner => exact .charClass none (by simp) members.shapes
  | negatedClass members inner => exact .charClass (some .caret) (by simp) members.shapes
  | noMember => trivial
  | literal others inner => trivial
  | range others inner => trivial
  | minus others inner => trivial

/-- Where a derivable list and the end of input are ahead, the pattern is accepted. -/
theorem pattern_stops (limit fuel : Nat) (text : String)
    (derivation : Derives .regex limit ((patternTokens text).map Token.kind))
    (enough : 4 * text.length + 4 ≤ fuel) :
    ∃ tree stop, pattern (some limit) fuel (.ofPattern text) = .accepted tree stop := by
  obtain ⟨ending, ends, whole⟩ := Cursor.ofPattern_stream_split text
  have short := Cursor.length_ofPattern_stream_le text
  have faces : (Cursor.ofPattern text).Faces 0 (patternTokens text ++ [ending]) :=
    ⟨Scanner.next_held _, rfl, whole, whole ▸ Cursor.ofPattern_tidy text⟩
  obtain ⟨tree, after, accepted, facesAfter⟩ := completes_of_derives derivation [] fuel 0
    (.ofPattern text) (patternTokens text) ending [] faces rfl (Nat.zero_add limit).symm
    (by rw [← whole]; omega) (.inl ends)
  have current : after.token.kind = .endOfInput := facesAfter.token_eq ▸ ends
  dsimp only at accepted
  refine ⟨tree, after.advance, ?_⟩
  rw [pattern, accepted]
  simp [Reply.andThen, Cursor.expect, current]

/-- The verdict is a value only if the reply accepts with it. -/
theorem Reply.verdict_eq_ok_iff {α : Type} (reply : Reply α) (settled : reply.isSettled = true)
    (value : α) : reply.verdict settled = .ok value ↔ ∃ stop, reply = .accepted value stop := by
  cases reply with
  | accepted found after => simp [Reply.verdict]
  | rejected error stop => simp [Reply.verdict]
  | broken fault => simp [Reply.isSettled] at settled

end Parser

/-- Parsing succeeds if the rules accept. -/
theorem parseWithin_eq_ok_iff (limit : Option Nat) (pattern : String) (tree : Regex) :
    parseWithin limit pattern = .ok tree ↔
      ∃ stop, parseReply limit pattern = .accepted tree stop :=
  Parser.Reply.verdict_eq_ok_iff _ _ tree

/-- A pattern parses if its tokens are derivable. -/
theorem exists_parse_of_derives {pattern : String}
    (derivation : Derives .regex nestingLimit ((patternTokens pattern).map Token.kind)) :
    ∃ tree, parse pattern = .ok tree := by
  obtain ⟨tree, stop, accepted⟩ := Parser.pattern_stops nestingLimit (parsingFuel pattern)
    pattern derivation (Nat.le_refl _)
  exact ⟨tree, (parseWithin_eq_ok_iff _ pattern tree).mpr ⟨stop, accepted⟩⟩

/-- A pattern parses if and only if its tokens are derivable in the grammar with no
more nested groups than the limit. Its tree is then such a derivation: the tokens at
its nodes are of the kinds the grammar asks for, and read in order they are the tokens
of the pattern. -/
theorem parse_accepts_iff (pattern : String) :
    ((∃ tree, parse pattern = .ok tree) ↔
      Derives .regex nestingLimit ((patternTokens pattern).map Token.kind)) ∧
    ∀ tree, parse pattern = .ok tree →
      tree.Conforms nestingLimit ∧ tree.tokens = patternTokens pattern := by
  have spells (tree : Regex) (parsed : parse pattern = .ok tree) :
      tree.Conforms nestingLimit ∧ tree.tokens = patternTokens pattern := by
    obtain ⟨stop, accepted⟩ := (parseWithin_eq_ok_iff _ pattern tree).mp parsed
    exact Parser.pattern_spells nestingLimit (parsingFuel pattern) pattern tree stop accepted
  refine ⟨⟨?_, ?_⟩, spells⟩
  · rintro ⟨tree, parsed⟩
    obtain ⟨conforms, tokens⟩ := spells tree parsed
    exact tokens ▸ conforms.derives
  · intro derivation
    obtain ⟨tree, stop, accepted⟩ := Parser.pattern_stops nestingLimit (parsingFuel pattern)
      pattern derivation (Nat.le_refl _)
    exact ⟨tree, (parseWithin_eq_ok_iff _ pattern tree).mpr ⟨stop, accepted⟩⟩

end RegexCompiler
