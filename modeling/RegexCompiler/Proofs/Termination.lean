import Mathlib.Data.Nat.Count
import Mathlib.Logic.Function.Iterate
import RegexCompiler.Proofs.Determinacy

/-!
# Every call of a rule ends

The tokens pending at a cursor are those that steps forward will come across before nothing
but the end of input is left. They are counted wherever they wait: under the cursor, in the
slot or in the text. Calls of the rules and turns of their loops are compared by this count.
No call leaves more tokens pending than it found, and every term, every expression and every
turn of a loop leaves fewer, also the turn that puts a `-` back.

Since a call only makes calls that weigh less, calls cannot be nested without end, and a loop,
which calls its own rule for each turn, cannot go around without end. What each call comes to
is then fixed by its cursor: enough fuel settles it, and more fuel does not change the verdict.
All of this holds wherever the cursor stands, whether or not a parse gets there.
-/

namespace RegexCompiler.Parser

/-! ### Tokens that are still to come -/

namespace Cursor

/-- Over any number of steps, the tokens stepped over and those still pending make up what was
pending. -/
theorem count_add_pending (cursor : Cursor) (steps : Nat) :
    Nat.count (fun step => (advance^[step] cursor).token.kind ≠ .endOfInput) steps +
      (advance^[steps] cursor).pending = cursor.pending := by
  induction steps with
  | zero => simp
  | succ steps inductionHypothesis =>
    have stepped := (advance^[steps] cursor).advance_pending
    rw [Nat.count_succ, Function.iterate_succ_apply']
    by_cases ended : (advance^[steps] cursor).token.kind = .endOfInput
    · have none : (advance^[steps] cursor).token.weight = 0 := if_pos ended
      rw [if_neg (not_not_intro ended)]
      omega
    · have one := (advance^[steps] cursor).token.weight_eq_one ended
      rw [if_pos ended]
      omega

/-- If the end of input was read off the text, nothing is pending. -/
theorem advance_pending_of_ended (cursor : Cursor) (free : cursor.scanner.held = none)
    (ended : cursor.advance.token.kind = .endOfInput) : cursor.advance.pending = 0 := by
  have read := cursor.scanner.next_of_free free
  have scanned : (scan cursor.scanner.offset cursor.scanner.rest).1.kind = .endOfInput := by
    rw [advance, read] at ended
    exact ended
  rw [scan_endOfInput _ _ scanned] at read
  simp [advance, pending, read, Scanner.pending, Token.weight, Token.endOfInput, lexemes,
    lexemesWithin]

/-- As many steps as there are pending tokens use them all up, if the current token was read
off the text and the slot is free. -/
theorem iterate_pending_of_free (cursor : Cursor) (steps : Nat)
    (free : cursor.scanner.held = none)
    (read : cursor.token.kind = .endOfInput → cursor.pending = 0)
    (enough : cursor.pending ≤ steps) : (advance^[steps] cursor).pending = 0 := by
  induction steps generalizing cursor with
  | zero => exact Nat.le_zero.mp enough
  | succ steps inductionHypothesis =>
    have stepped := cursor.advance_pending
    rw [Function.iterate_succ_apply]
    refine inductionHypothesis _ cursor.advance_held (cursor.advance_pending_of_ended free) ?_
    by_cases ended : cursor.token.kind = .endOfInput
    · have none := read ended
      omega
    · have one := cursor.token.weight_eq_one ended
      omega

/-- The pending tokens are those that steps forward come across, apart from the end of input.
Two steps more than that reach the end from every cursor: one for the current token and one
for the slot, which need not come from the text. -/
theorem count_eq_pending (cursor : Cursor) (steps : Nat) (enough : cursor.pending + 2 ≤ steps) :
    Nat.count (fun step => (advance^[step] cursor).token.kind ≠ .endOfInput) steps =
      cursor.pending := by
  have stepped := cursor.advance_pending
  have steppedAgain := cursor.advance.advance_pending
  obtain ⟨further, rfl⟩ : ∃ further, steps = further + 2 := ⟨steps - 2, by omega⟩
  have used : (advance^[further + 2] cursor).pending = 0 :=
    iterate_pending_of_free cursor.advance.advance further cursor.advance.advance_held
      (cursor.advance.advance_pending_of_ended cursor.advance_held) (by omega)
  have split := cursor.count_add_pending (further + 2)
  omega

end Cursor

/-! ### Turns of the loops -/

/-- A completed turn of a loop, from where it begins to where it ends: another alternative
behind a `|`, another expression of a sequence, or another member between brackets. -/
inductive Turn (limit : Option Nat) : Cursor → Cursor → Prop where
  | alternative {cursor after : Cursor} {found : Sequence} {fuel : Nat}
      (pipe : cursor.token.kind = .pipe)
      (read : sequence limit fuel [] cursor.advance = .accepted found after) :
      Turn limit cursor after
  | expr {cursor after : Cursor} {found : Expr} {fuel : Nat}
      (more : endsSequence cursor.token.kind = false)
      (read : Parser.expr limit fuel cursor = .accepted found after) : Turn limit cursor after
  | literal {cursor after : Cursor} {found : Member} (literal : cursor.token.kind = .literal)
      (read : literalMember cursor = .accepted found after) : Turn limit cursor after
  | minus {cursor : Cursor} (minus : cursor.token.kind = .minus) : Turn limit cursor cursor.advance

variable {limit : Option Nat}

/-- A turn of a loop leaves fewer tokens pending. -/
theorem Turn.pending_lt {before after : Cursor} (turn : Turn limit before after) :
    after.pending < before.pending := by
  have stepped := before.advance_pending
  cases turn with
  | @alternative _ found fuel pipe read =>
    have bar := before.token.weight_of_kind _ pipe (by decide)
    have fewer := ((rulesSpend limit fuel).sequence [] before.advance).of_accepted read
    omega
  | @expr _ found fuel more read =>
    have fewer := ((rulesSpend limit fuel).expr before).of_accepted read
    omega
  | literal literal read =>
    have fewer := (literalMember_spends before literal).of_accepted read
    omega
  | minus minus =>
    have dash := before.token.weight_of_kind _ minus (by decide)
    omega

/-! ### Calls of the rules -/

namespace Call

/-- How many tokens the called rule spends at least when it accepts. -/
def least : Call → Nat
  | expr _ | term _ => 1
  | regex _ _ | sequence _ _ | members _ _ => 0

/-- No call leaves more tokens pending, and an expression or a term that is read leaves
fewer. -/
theorem reply_spends (call : Call) (fuel : Nat) :
    (call.reply limit fuel).Spends call.least call.cursor.pending := by
  cases call with
  | regex earlier cursor => exact (rulesSpend limit fuel).regex earlier cursor
  | sequence found cursor => exact (rulesSpend limit fuel).sequence found cursor
  | expr cursor => exact (rulesSpend limit fuel).expr cursor
  | term cursor => exact (rulesSpend limit fuel).term cursor
  | members found cursor => exact members_spends fuel found cursor

/-- The verdict on a call does not depend on its fuel. -/
theorem reply_matches (call : Call) (fuel fuel' : Nat) :
    Reply.Matches Cursor.Alike (call.reply limit fuel) (call.reply limit fuel') := by
  have alike (cursor : Cursor) : cursor.Alike cursor := ⟨rfl, rfl⟩
  cases call with
  | regex earlier cursor => exact (rulesMatch limit fuel fuel').regex earlier _ _ (alike cursor)
  | sequence found cursor => exact (rulesMatch limit fuel fuel').sequence found _ _ (alike cursor)
  | expr cursor => exact (rulesMatch limit fuel fuel').expr _ _ (alike cursor)
  | term cursor => exact (rulesMatch limit fuel fuel').term _ _ (alike cursor)
  | members found cursor => exact (alike cursor).members fuel fuel' found

/-- Calls are not nested without end. -/
theorem wellFounded_prompts (limit : Option Nat) :
    WellFounded fun next call => Prompts limit call next :=
  Subrelation.wf (fun prompts => prompts.weight_lt) (measure weight).wf

/-- Four steps for each pending token, and four more, settle a call. -/
theorem isSettled_of_pending (call : Call) (fuel : Nat)
    (enough : 4 * call.cursor.pending + 4 ≤ fuel) : (call.reply limit fuel).isSettled = true := by
  apply isSettled_of_weight_le
  have low : call.rank ≤ 4 := by cases call <;> simp [rank]
  rw [weight]
  omega

end Call

/-- A pattern leaves no more tokens pending, whether it is accepted or rejected. -/
theorem pattern_spends (limit : Option Nat) (fuel : Nat) (cursor : Cursor) :
    (pattern limit fuel cursor).Spends 0 cursor.pending := by
  refine ((rulesSpend limit fuel).regex [] cursor).andThen 0 ?_
  intro regex after fewer
  refine Reply.Spends.andThen 0 ((after.expect_spends .endOfInput).relax (by omega) (by omega)) ?_
  intro ending stop fewerStop
  exact fewerStop

/-- Fuel beyond what parsing provides does not change the verdict on a pattern. -/
theorem verdict_eq_parseWithin (limit : Option Nat) (text : String) (fuel : Nat)
    (settled : (pattern limit fuel (.ofPattern text)).isSettled = true) :
    (pattern limit fuel (.ofPattern text)).verdict settled = parseWithin limit text :=
  (pattern_matches limit fuel _ _ _ ⟨rfl, rfl⟩).verdict_eq settled _

/-- Every call of a rule makes progress and ends. The measure counts the tokens that steps
forward will still come across, the end of input apart. A call never raises it, whether it
accepts or rejects, and an accepted expression or term lowers it. Every completed turn of a
loop lowers it too: each alternative behind a `|`, each expression, and each member, also when
a `-` is put back. Calls are not nested without end, a call breaks down only if one that it
makes does, and so every call is settled by fuel for the pending tokens, with a verdict that
no other fuel changes. In particular every pattern is parsed to a verdict. -/
theorem calls_terminate (limit : Option Nat) :
    (∀ cursor : Cursor, ∀ steps ≥ cursor.pending + 2,
      Nat.count (fun step => (Cursor.advance^[step] cursor).token.kind ≠ .endOfInput) steps =
        cursor.pending) ∧
    (∀ (call : Call) (fuel : Nat),
      (call.reply limit fuel).Spends call.least call.cursor.pending) ∧
    (∀ (cursor : Cursor) (fuel : Nat), (pattern limit fuel cursor).Spends 0 cursor.pending) ∧
    (∀ before after : Cursor, Turn limit before after → after.pending < before.pending) ∧
    (WellFounded fun next call => Call.Prompts limit call next) ∧
    (∀ (call : Call) (fuel : Nat), (call.reply limit (fuel + 1)).isSettled = false →
      ∃ next, Call.Prompts limit call next ∧ (next.reply limit fuel).isSettled = false) ∧
    (∀ (call : Call) (fuel fuel' : Nat), 4 * call.cursor.pending + 4 ≤ fuel →
      (call.reply limit fuel).isSettled = true ∧
        Reply.Matches Cursor.Alike (call.reply limit fuel) (call.reply limit fuel')) ∧
    ∀ (text : String) (fuel : Nat), parsingFuel text ≤ fuel →
      ∃ settled : (pattern limit fuel (.ofPattern text)).isSettled = true,
        (pattern limit fuel (.ofPattern text)).verdict settled = parseWithin limit text := by
  refine ⟨Cursor.count_eq_pending, fun call fuel => call.reply_spends fuel,
    fun cursor fuel => pattern_spends limit fuel cursor, fun _ _ turn => turn.pending_lt,
    Call.wellFounded_prompts limit, fun call fuel => call.prompts_of_unsettled fuel, ?_, ?_⟩
  · intro call fuel fuel' enough
    exact ⟨call.isSettled_of_pending fuel enough, call.reply_matches fuel fuel'⟩
  · intro text fuel enough
    have short := length_lexemes_le 0 text.toList
    rw [parsingFuel, ← String.length_toList] at enough
    rw [← Cursor.ofPattern_pending] at short
    exact ⟨pattern_isSettled limit _ fuel (by omega), verdict_eq_parseWithin limit text fuel _⟩

/-- The turn at `a` puts the `-` back in front of the end of input, which waits in the slot. One
step of fuel is too little for the loop, and twelve are enough. -/
theorem calls_terminate_putBack :
    let start := (Cursor.ofPattern "[a-").advance
    ∃ after, literalMember start = .accepted (.single start.token) after ∧
      after.scanner.held = some (.endOfInput 3) ∧ after.pending < start.pending ∧
      Nat.count (fun step => (Cursor.advance^[step] after).token.kind ≠ .endOfInput) 3 =
        after.pending ∧
      (∃ next, Call.Prompts none (.members [] start) next ∧
        (next.reply none 0).isSettled = false) ∧
      ((Call.members [] start).reply none 12).isSettled = true ∧
      ∃ settled : (pattern none 16 (.ofPattern "[a-")).isSettled = true,
        (pattern none 16 (.ofPattern "[a-")).verdict settled = parseWithin none "[a-" := by
  obtain ⟨counts, _, _, turns, _, breaks, settles, parses⟩ := calls_terminate none
  exact ⟨_, rfl, rfl, turns _ _ (.literal rfl rfl), counts _ 3 (by decide),
    breaks _ 0 (by decide), (settles _ 12 12 (by decide)).1, parses _ 16 (by decide)⟩

end RegexCompiler.Parser
