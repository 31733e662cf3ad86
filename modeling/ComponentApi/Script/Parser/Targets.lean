import ComponentApi.Script.Parser.Cursor

/-!
# Targets of assignments

What stands to the left of an assignment is read as an expression first. Names and members are
targets, and so are arrays and objects of targets. A default of a shorthand property, which is an
error in any other object, is covered once the object turns out to be a target.
-/

namespace ComponentApi.Script

/-- Whether an expression is a name or a member, perhaps in parentheses or with a type. -/
def Expr.isSimpleTarget : Expr → Bool
  | .ident _ | .member _ _ _ | .index _ _ _ | .privateMember _ _ => true
  | .paren _ e | .asType _ e | .satisfies _ e | .nonNull _ e | .typeAssertion _ e =>
    e.isSimpleTarget
  | _ => false

mutual

/-- Whether an expression is a target; `dangling` are the starts of those arrays and objects that
have a comma after a spread at their end. -/
def Expr.isTarget (dangling : List Nat) : Expr → Bool
  | .array span elements => !dangling.contains span.start && areTargetElements dangling elements
  | .object span properties =>
    !dangling.contains span.start && areTargetProperties dangling properties
  | e => e.isSimpleTarget

/-- Whether an expression is a target, perhaps with a default. -/
def Expr.isTargetWithDefault (dangling : List Nat) : Expr → Bool
  | .assign _ operator _ _ => operator == "="
  | .array span elements => !dangling.contains span.start && areTargetElements dangling elements
  | .object span properties =>
    !dangling.contains span.start && areTargetProperties dangling properties
  | e => e.isSimpleTarget

/-- Whether the elements of an array are targets; a spread must be the last. -/
def areTargetElements (dangling : List Nat) : List Expr → Bool
  | [] => true
  | .hole _ :: rest => areTargetElements dangling rest
  | [.spread _ e] => e.isTarget dangling
  | .spread _ _ :: _ => false
  | e :: rest => e.isTargetWithDefault dangling && areTargetElements dangling rest

/-- Whether the values of the properties of an object are targets; a spread must be the last. -/
def areTargetProperties (dangling : List Nat) : List Property → Bool
  | [] => true
  | .field _ true _ :: rest => areTargetProperties dangling rest
  | .field _ false e :: rest =>
    e.isTargetWithDefault dangling && areTargetProperties dangling rest
  | .method _ _ :: _ => false
  | [.spread e] => e.isSimpleTarget
  | .spread _ :: _ => false

end

mutual

/-- Where the shorthand properties of a target start. -/
def Expr.shorthandStarts : Expr → List Nat
  | .array _ elements => shorthandStartsOfElements elements
  | .object _ properties => shorthandStartsOfProperties properties
  | .spread _ e => e.shorthandStarts
  | _ => []

/-- Where the shorthand properties of the elements of a target start. -/
def shorthandStartsOfElements : List Expr → List Nat
  | [] => []
  | e :: rest => e.shorthandStarts ++ shorthandStartsOfElements rest

/-- Where the shorthand properties among the properties of a target start. -/
def shorthandStartsOfProperties : List Property → List Nat
  | [] => []
  | .field _ true e :: rest => e.span.start :: shorthandStartsOfProperties rest
  | .field _ false e :: rest => e.shorthandStarts ++ shorthandStartsOfProperties rest
  | _ :: rest => shorthandStartsOfProperties rest

end

namespace Parser

/-- Stops unless an expression is a target, and covers the defaults in it. -/
def asTarget (e : Expr) : Parser Unit := do
  let cursor ← get
  unless e.isTarget cursor.dangling do stop
  let covered := e.shorthandStarts
  set { cursor with defaults := cursor.defaults.filter fun start => !covered.contains start }

/-- Stops unless an expression is a name or a member. -/
def asSimpleTarget (e : Expr) : Parser Unit := do
  unless e.isSimpleTarget do stop

end Parser

end ComponentApi.Script
