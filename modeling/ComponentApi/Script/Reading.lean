import ComponentApi.Script.Parser
import ComponentApi.Script.Symbols
import ComponentApi.Source.Basic

/-!
# Reading scripts

A script block is read as a module, an expression of the markup as one in parentheses. A text that
is not well-formed is a failure, and nothing is found in it.
-/

namespace ComponentApi

namespace Script

/-- The text of a block and its place. -/
def Excerpt.ofBlock (block : ScriptBlock) : Excerpt :=
  ⟨block.scope, block.offset, block.content.toList⟩

/-- The text of an expression of the markup that starts at the offset, in parentheses so that
braces at its start open an object. -/
def Excerpt.ofInline (expression : List Char) (offset : Nat) : Excerpt :=
  ⟨.inline, offset - 1, '(' :: (expression ++ [')'])⟩

end Script

namespace Extraction

open Script

/-- What is found when a script block is read too. -/
def readScript (found : Extraction) (block : ScriptBlock) : Except Failure Extraction :=
  match parseModule? block.isTypeScript block.content.toList with
  | some statements => .ok (extractStatements (.ofBlock block) statements found)
  | none => .error (.syntaxError block.scope block.offset)

/-- What is found when an expression of the markup, which starts at the offset, is read too. -/
def readInline (found : Extraction) (expression : List Char) (offset : Nat) :
    Except Failure Extraction :=
  let excerpt := Excerpt.ofInline expression offset
  match parseExpression? excerpt.text with
  | some e => .ok (e.searchTop excerpt none found)
  | none => .error (.syntaxError .inline offset)

/-- What is found when script blocks are read one after the other, up to the first failure. -/
def readScripts (found : Extraction) (blocks : List ScriptBlock) : Except Failure Extraction :=
  blocks.foldlM readScript found

end Extraction

end ComponentApi
