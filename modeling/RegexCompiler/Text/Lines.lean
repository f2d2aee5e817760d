/-!
# Lines of a text

A line feed ends a line, and a carriage return just before it belongs to the line
end. Characters after the last line feed are one more line, which has no line end
and keeps all its characters; if there are none, there is no such line.
-/

namespace RegexCompiler.Text

/-- Splitting in progress: the lines that have ended and the characters of the
line that has not, both latest first. -/
structure Splitting where
  ended : List String
  current : List Char

/-- The characters of a line that a line feed ends, latest first, without the
carriage return that belongs to the line end. -/
def withoutReturn : List Char → List Char
  | '\r' :: before => before
  | line => line

/-- Read one character. -/
def Splitting.step (state : Splitting) (c : Char) : Splitting :=
  if c = '\n' then ⟨String.ofList (withoutReturn state.current).reverse :: state.ended, []⟩
  else ⟨state.ended, c :: state.current⟩

/-- The lines of a text that has been read to its end, in order. -/
def Splitting.finish (state : Splitting) : List String :=
  match state.current with
  | [] => state.ended.reverse
  | current => (String.ofList current.reverse :: state.ended).reverse

/-- The lines of a text, without their ends. -/
def lines (text : String) : List String :=
  (text.toList.foldl Splitting.step ⟨[], []⟩).finish

end RegexCompiler.Text
