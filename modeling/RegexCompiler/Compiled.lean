import RegexCompiler.Emission
import RegexCompiler.Listing
import RegexCompiler.Outline
import RegexCompiler.Parser

/-!
# Compiled patterns

A pattern is parsed into a tree and the tree is compiled into a program. The
pattern is kept in full, also beyond a NUL that ends what is parsed of it.
-/

namespace RegexCompiler

/-- A pattern with its tree and its program. -/
structure Compiled where
  pattern : String
  tree : Regex
  program : Program

/-- Parse and compile a pattern. -/
def Compiled.ofPattern (pattern : String) : Except SyntaxError Compiled :=
  (parse pattern).map fun tree => ⟨pattern, tree, tree.program⟩

/-- The program of a pattern. -/
def compile (pattern : String) : Except SyntaxError Program :=
  (Compiled.ofPattern pattern).map Compiled.program

/-- The listing of a compiled pattern. -/
def Compiled.listing (compiled : Compiled) : String := compiled.program.listing

/-- The outline of a compiled pattern. -/
def Compiled.outlineText (compiled : Compiled) : String := compiled.tree.outlineText

end RegexCompiler
