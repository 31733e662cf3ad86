import ComponentApi.Script.Parser.Statements
import ComponentApi.Script.Scope

/-!
# Parsing scripts

A script is a module; an expression in markup is read on its own. Both are rejected as a whole if
they have a fault anywhere.
-/

namespace ComponentApi.Script

open ComponentApi.Script.Parser

/-- The grammar down to a nesting depth. -/
def Grammar.ofDepth : Nat → Grammar
  | 0 => ⟨stop, fun _ => stop, stop, stop, stop, stop, fun _ => stop, stop⟩
  | depth + 1 => {
    assignment := fun mode cursor => assignmentAt (ofDepth depth) mode cursor
    binary := fun least mode cursor => binaryAt (ofDepth depth) least mode cursor
    unary := fun mode cursor => unaryAt (ofDepth depth) mode cursor
    callee := fun mode cursor => calleeAt (ofDepth depth) mode cursor
    operand := fun mode cursor => operandAt (ofDepth depth) mode cursor
    pattern := fun mode cursor => patternAt (ofDepth depth) mode cursor
    statement := fun alone mode cursor => statementAt (ofDepth depth) alone mode cursor
    type := fun mode cursor => typeAt (ofDepth depth) mode cursor }

/-- Runs a parser of the grammar on a text. -/
def run? {α : Type} (typed : Bool) (parser : Grammar → Parser α) (text : List Char) :
    Option (α × Cursor) := do
  let first ← next? (skipHashbang ⟨text, 0⟩)
  let cursor : Cursor := {
    token := first.token, start := first.start, stop := first.rest.position
    newline := first.newline, rest := first.rest, lastStop := 0
    flawed := false, defaults := [], dangling := [] }
  let (a, cursor) ← parser (.ofDepth (2 * text.length + 16)) { typed, size := text.length } cursor
  if cursor.flawed || !cursor.defaults.isEmpty then none
  return (a, cursor)

/-- The statements of a script up to its end. -/
def statements (g : Grammar) : Parser (List Stmt) :=
  many do
    if ← atEnd then return none
    return some (← g.statement false)

/-- The statements of a module, without its directives. No name may be exported twice, except that
names of types are not told apart from others. -/
def parseModule? (typed : Bool) (text : List Char) : Option (List Stmt) := do
  let (body, _) ← run? typed statements text
  if !typed && !(body.flatMap Stmt.exportedNames).Nodup then none
  return body.dropWhile isDirective

/-- The expression at the start of a text. What follows it is not read, except for the next
token. -/
def parseExpression? (text : List Char) : Option Expr := do
  let (e, _) ← run? false expression text
  return e

end ComponentApi.Script
