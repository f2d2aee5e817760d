import Mathlib.Logic.Function.Iterate
import RegexCompiler.Emission
import RegexCompiler.Proofs.Acceptance
import RegexCompiler.Proofs.Canonical

/-!
# Members of a character class

Between brackets a literal, a `-` and another literal are a range, and whatever does not make
a range is a member of its own. If no literal, `-` and literal in a row are left apart, the
tokens can be divided into members in one way only.

The loop that reads them looks at a `-` before it knows whether a range follows, and puts it
back if none does. Putting it back leaves no trace: the `-` is read again at once, and behind
it stands the cursor that was left. A turn of the loop is therefore described by plain steps
forward, and the whole loop ends where as many steps lead as there are tokens.
-/

namespace RegexCompiler

/-- The members divide the tokens, and no literal, `-` and literal in a row are members of
their own. -/
structure Segmentation (tokens : List Token) (members : List Member) : Prop where
  reading : Reading tokens members
  segmented : Segmented members

/-- Literals and `-` are read as their segments. -/
theorem reading_segments (tokens : List Token) (inside : ∀ token ∈ tokens, token.kind.IsMember) :
    Reading tokens (segments tokens) := by
  fun_induction segments tokens with
  | case1 low minus high rest range inductionHypothesis =>
    exact .range range.1 range.2.1 range.2.2 (inductionHypothesis (by simp_all))
  | case2 low minus high rest apart inductionHypothesis =>
    obtain ⟨first, later⟩ := List.forall_mem_cons.mp inside
    exact .single first (inductionHypothesis later)
  | case3 token rest short inductionHypothesis =>
    obtain ⟨first, later⟩ := List.forall_mem_cons.mp inside
    exact .single first (inductionHypothesis later)
  | case4 => exact .nil

/-- A token that may be in a member does not end the input. -/
theorem Kind.IsMember.ne_endOfInput {kind : Kind} (isMember : kind.IsMember) :
    kind ≠ .endOfInput := by
  rcases isMember with rfl | rfl <;> decide

namespace Parser

/-! ### Steps forward -/

/-- Steps over tokens ahead take them off the stream and leave the slot free. -/
theorem Cursor.iterate_advance (cursor : Cursor) (tokens rest : List Token)
    (free : cursor.scanner.held = none) (ahead : cursor.stream = tokens ++ rest)
    (inside : ∀ token ∈ tokens, token.kind.IsMember) :
    (Cursor.advance^[tokens.length] cursor).stream = rest ∧
      (Cursor.advance^[tokens.length] cursor).scanner.held = none := by
  induction tokens generalizing cursor with
  | nil => exact ⟨ahead, free⟩
  | cons token others inductionHypothesis =>
    obtain ⟨first, later⟩ := List.forall_mem_cons.mp inside
    obtain ⟨_, stepped⟩ := Cursor.step_of_stream ahead first.ne_endOfInput
    rw [List.length_cons, Function.iterate_succ_apply]
    exact inductionHypothesis cursor.advance cursor.advance_held stepped later

/-- Putting a token back and stepping over it again leads back. -/
theorem Cursor.unget_advance (cursor : Cursor) (token : Token)
    (free : cursor.scanner.held = none) :
    ∃ back, cursor.unget token = .ok back ∧ back.token = token ∧ back.advance = cursor := by
  refine ⟨⟨token, ⟨cursor.scanner.rest, cursor.scanner.offset, some cursor.token⟩, cursor.depth⟩,
    ?_, rfl, ?_⟩
  · simp [Cursor.unget, Scanner.pushback, free, Except.map]
  · simp only [Cursor.advance, Scanner.next, ← free]

/-- From a `-` the loop goes on behind it, so that what is behind it is all that matters. -/
theorem members_congr (fuel : Nat) (found : List Member) {left right : Cursor}
    (minus : left.token.kind = .minus) (token : left.token = right.token)
    (behind : left.advance = right.advance) :
    members fuel found left = members fuel found right := by
  cases fuel with
  | zero => rfl
  | succ fuel => simp [members, ← token, minus, behind]

/-- A turn of the loop at a literal reads the range that begins there or the literal alone. -/
theorem members_literal (fuel : Nat) (found : List Member) (cursor : Cursor)
    (literal : cursor.token.kind = .literal) :
    members (fuel + 1) found cursor =
      if cursor.advance.token.kind = .minus ∧ cursor.advance.advance.token.kind = .literal then
        members fuel (.range cursor.token cursor.advance.advance.token :: found)
          cursor.advance.advance.advance
      else members fuel (.single cursor.token :: found) cursor.advance := by
  rw [members, if_pos literal, literalMember]
  by_cases minus : cursor.advance.token.kind = .minus
  · by_cases high : cursor.advance.advance.token.kind = .literal
    · simp [minus, high, Reply.andThen]
    · obtain ⟨back, restored, token, behind⟩ :=
        cursor.advance.advance.unget_advance cursor.advance.token cursor.advance.advance_held
      simp only [minus, high, restored, and_false, if_true, if_false, Reply.andThen]
      exact members_congr fuel _ (by rw [token, minus]) token behind
  · simp [minus, Reply.andThen]

/-- A turn of the loop at a token that no range begins with reads the token alone. The token
behind the last one cannot be in a member, so it completes no range either. -/
theorem members_single (fuel : Nat) (found : List Member) (cursor : Cursor) {token next : Token}
    {others rest : List Token} (ahead : cursor.stream = token :: (others ++ next :: rest))
    (inside : ∀ other ∈ token :: others, other.kind.IsMember) (outside : ¬ next.kind.IsMember)
    (apart : ∀ minus high more, others = minus :: high :: more → token.kind = .literal →
      minus.kind = .minus → high.kind ≠ .literal) :
    members (fuel + 1) found cursor = members fuel (.single token :: found) cursor.advance := by
  obtain ⟨first, later⟩ := List.forall_mem_cons.mp inside
  obtain ⟨rfl, behind⟩ := Cursor.step_of_stream ahead first.ne_endOfInput
  rcases first with literal | minus
  · rw [members_literal fuel found cursor literal, if_neg]
    rintro ⟨isMinus, isHigh⟩
    cases others with
    | nil =>
      obtain ⟨second, _⟩ := List.cons.inj behind
      exact outside (.inr (second ▸ isMinus))
    | cons minus others =>
      obtain ⟨isMember, _⟩ := List.forall_mem_cons.mp later
      obtain ⟨rfl, beyond⟩ := Cursor.step_of_stream behind isMember.ne_endOfInput
      cases others with
      | nil =>
        obtain ⟨third, _⟩ := List.cons.inj beyond
        exact outside (.inl (third ▸ isHigh))
      | cons high more =>
        obtain ⟨third, _⟩ := List.cons.inj beyond
        exact apart _ high more rfl literal isMinus (third ▸ isHigh)
  · simp [members, minus]

/-! ### The whole loop -/

/-- The loop reads the segments of the tokens up to the first that cannot be in a member, and
ends where plain steps over these tokens lead. -/
theorem members_eq_segments (fuel : Nat) (found : List Member) (cursor : Cursor)
    (tokens rest : List Token) (next : Token) (ahead : cursor.stream = tokens ++ next :: rest)
    (inside : ∀ token ∈ tokens, token.kind.IsMember) (outside : ¬ next.kind.IsMember)
    (enough : tokens.length < fuel) :
    members fuel found cursor =
      .accepted (.ofList (found.reverse ++ segments tokens))
        (Cursor.advance^[tokens.length] cursor) := by
  induction fuel generalizing found cursor tokens with
  | zero => omega
  | succ fuel inductionHypothesis =>
    cases tokens with
    | nil =>
      obtain ⟨current, _⟩ := List.cons.inj ahead
      obtain ⟨notLiteral, notMinus⟩ := not_or.mp outside
      rw [members, if_neg (current ▸ notLiteral), if_neg (current ▸ notMinus)]
      simp [segments]
    | cons token others =>
      obtain ⟨first, later⟩ := List.forall_mem_cons.mp inside
      rw [List.length_cons] at enough
      by_cases apart : ∀ minus high more, others = minus :: high :: more → token.kind = .literal →
          minus.kind = .minus → high.kind ≠ .literal
      · obtain ⟨_, behind⟩ := Cursor.step_of_stream ahead first.ne_endOfInput
        rw [members_single fuel found cursor ahead inside outside apart,
          inductionHypothesis _ cursor.advance others behind later (by omega),
          segments_cons_single token others apart]
        simp
      · push Not at apart
        obtain ⟨minus, high, more, rfl, literal, isMinus, isHigh⟩ := apart
        obtain ⟨rfl, behind⟩ := Cursor.step_of_stream ahead first.ne_endOfInput
        obtain ⟨rfl, beyond⟩ := Cursor.step_of_stream behind (by simp [isMinus])
        obtain ⟨rfl, after⟩ := Cursor.step_of_stream beyond (by simp [isHigh])
        simp only [List.length_cons] at enough
        rw [members_literal fuel found cursor literal, if_pos ⟨isMinus, isHigh⟩,
          inductionHypothesis _ _ more after (by simp_all) (by omega), segments,
          if_pos ⟨literal, isMinus, isHigh⟩]
        simp

/-- The members of a class are the one segmentation of its tokens. The loop starts with a free
slot wherever a class is read. From a free slot, and with tokens ahead that may be in members
up to one that may not, it finds members that divide those tokens, with no literal, `-` and
literal in a row left apart, and no other members do. It ends on the token behind them with a
free slot, just where plain steps over the tokens lead. The class compiles to one instruction,
with a pair of characters for each member in order: twice the character of a single token, and
the two characters of a range as they were written, whichever is the greater. -/
theorem members_segmentation :
    (∀ cursor : Cursor, (cursor.advance.accept .caret).2.scanner.held = none) ∧
    ∀ (fuel : Nat) (cursor : Cursor) (tokens rest : List Token) (next : Token),
      cursor.scanner.held = none → cursor.stream = tokens ++ next :: rest →
      (∀ token ∈ tokens, token.kind.IsMember) → ¬ next.kind.IsMember → tokens.length < fuel →
      ∃ found after, members fuel [] cursor = .accepted (.ofList found) after ∧
        Segmentation tokens found ∧ (∀ others, Segmentation tokens others → others = found) ∧
        after.token = next ∧ after.scanner.held = none ∧
        after = Cursor.advance^[tokens.length] cursor ∧
        ∀ opening negation closing slots,
          ((Term.charClass opening negation (.ofList found) closing).emit slots).slots = slots ∧
          ((Term.charClass opening negation (.ofList found) closing).emit slots).code.insts =
            #[(if negation.isSome then Inst.noneOf else Inst.oneOf) (found.map fun member =>
                match member with
                | .single token => (token.char, token.char)
                | .range low high => (low.char, high.char)), .accept] := by
  constructor
  · intro cursor
    exact (cursor.advance.accept_progress .caret cursor.advance_held).1
  · intro fuel cursor tokens rest next free ahead inside outside enough
    have read := members_eq_segments fuel [] cursor tokens rest next ahead inside outside enough
    obtain ⟨stream, freeAfter⟩ := cursor.iterate_advance tokens (next :: rest) free ahead inside
    have segmented : Segmented (segments tokens) := by
      have canonical := members_yields fuel [] cursor (separates_nil cursor)
      rw [read] at canonical
      simpa [Members.toList_ofList] using canonical.2
    refine ⟨segments tokens, _, read, ⟨reading_segments tokens inside, segmented⟩, ?_, ?_,
      freeAfter, rfl, ?_⟩
    · intro others segmentation
      exact (segmentation.reading.segments_eq segmentation.segmented).symm
    · exact (List.cons.inj stream).1
    · intro opening negation closing slots
      refine ⟨rfl, ?_⟩
      simp only [Term.emit, classInst, Members.toList_ofList]
      cases negation <;> rfl

/-- A range with its bounds reversed, two `-` behind it, and a `-` that is put back. The
reversed bounds stand in the instruction as they were written. -/
theorem members_segmentation_reversed :
    ∃ found after,
      members 8 [] (Cursor.ofPattern "[z-a--b-]").advance = .accepted (.ofList found) after ∧
      Segmentation (lexemes 1 "z-a--b-".toList) found ∧
      ((Term.charClass ⟨.leftBracket, '[', ⟨0, 1⟩⟩ none (.ofList found) after.token).emit
          0).code.insts =
        #[.oneOf [('z', 'a'), ('-', '-'), ('-', '-'), ('b', 'b'), ('-', '-')], .accept] ∧
      after.token = ⟨.rightBracket, ']', ⟨8, 9⟩⟩ ∧ after.scanner.held = none := by
  obtain ⟨found, after, read, segmentation, _, token, free, _, compiled⟩ :=
    members_segmentation.2 8 (Cursor.ofPattern "[z-a--b-]").advance (lexemes 1 "z-a--b-".toList)
      [.endOfInput 9] ⟨.rightBracket, ']', ⟨8, 9⟩⟩ rfl (by decide) (by decide) (by decide)
      (by decide)
  refine ⟨found, after, read, segmentation, ?_, token, free⟩
  obtain ⟨_, instruction⟩ := compiled ⟨.leftBracket, '[', ⟨0, 1⟩⟩ none after.token 0
  rw [instruction, ← segmentation.reading.segments_eq segmentation.segmented]
  decide

end Parser

end RegexCompiler
