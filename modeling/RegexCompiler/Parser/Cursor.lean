import RegexCompiler.Scanner
import RegexCompiler.SyntaxError

/-!
# Where a parse stands

A cursor holds the token to be looked at next, the scanner behind it and the
number of groups that are open. Rules move it forward one token at a time. One
step back is possible: the token put back becomes current again, and the token
it displaces goes to the scanner's single slot.

A rule replies in one of three ways. It accepts with a value, it rejects the
current token, and in both cases it says where it stopped; or it is broken by a
fault of its own, a second token in the slot or an exhausted bound on its steps.
No pattern leads to a fault, which is proved beside the rules.
-/

namespace RegexCompiler.Parser

/-- The current token, the tokens after it and the number of open groups. -/
structure Cursor where
  token : Token
  scanner : Scanner
  depth : Nat

namespace Cursor

/-- A cursor on the first token of a pattern. -/
def ofPattern (pattern : String) : Cursor :=
  let first := (Scanner.ofPattern pattern).next
  ⟨first.1, first.2, 0⟩

/-- Step over the current token. -/
def advance (cursor : Cursor) : Cursor :=
  let following := cursor.scanner.next
  ⟨following.1, following.2, cursor.depth⟩

/-- Step over the current token if it has the given kind. -/
def accept (cursor : Cursor) (kind : Kind) : Option Token × Cursor :=
  if cursor.token.kind = kind then (some cursor.token, cursor.advance) else (none, cursor)

/-- Make a token current again that was stepped over just before. -/
def unget (cursor : Cursor) (token : Token) : Except Scanner.Misuse Cursor :=
  (cursor.scanner.pushback cursor.token).map (⟨token, ·, cursor.depth⟩)

/-- Enter a group. -/
def enter (cursor : Cursor) : Cursor := { cursor with depth := cursor.depth + 1 }

/-- Leave a group. -/
def leave (cursor : Cursor) : Cursor := { cursor with depth := cursor.depth - 1 }

end Cursor

/-- Why a rule may break down, apart from what the pattern says. -/
inductive Fault where
  | misuse (cause : Scanner.Misuse)
  | outOfFuel
  deriving DecidableEq

/-- The reply of a rule. -/
inductive Reply (α : Type) where
  | accepted (value : α) (after : Cursor)
  | rejected (error : SyntaxError) (stop : Cursor)
  | broken (fault : Fault)

namespace Reply

/-- Go on where an accepting rule stopped; any other reply is final. -/
@[inline]
def andThen {α β : Type} (reply : Reply α) (proceed : α → Cursor → Reply β) : Reply β :=
  match reply with
  | accepted value after => proceed value after
  | rejected error stop => rejected error stop
  | broken fault => broken fault

/-- Whether the reply is a verdict on the pattern. -/
def isSettled {α : Type} : Reply α → Bool
  | accepted _ _ => true
  | rejected _ _ => true
  | broken _ => false

/-- The verdict of a settled reply. -/
def verdict {α : Type} : (reply : Reply α) → reply.isSettled = true → Except SyntaxError α
  | accepted value _, _ => .ok value
  | rejected error _, _ => .error error

end Reply

/-- Accept the current token if it has the given kind and reject it otherwise. -/
def Cursor.expect (cursor : Cursor) (kind : Kind) : Reply Token :=
  if cursor.token.kind = kind then .accepted cursor.token cursor.advance
  else .rejected (.ofToken (.token kind) cursor.token) cursor

end RegexCompiler.Parser
