import ComponentApi.Names.Declaration
import ComponentApi.Script.Tree

/-!
# Initial values

What can be told of a variable from the expression it starts with: what its name stands for, its
type, and its value if that is a literal.
-/

namespace ComponentApi.Script

/-- The text of a template without expressions. -/
def templateText? : (texts : List String) → (expressions : List Expr) → Option String
  | text :: _, [] => some text
  | _, _ => none

/-- The string that a literal or a template without expressions stands for. -/
def Expr.text? : Expr → Option String
  | .string _ value => some value
  | .template _ texts expressions => templateText? texts expressions
  | _ => none

/-- The path of a name or a member: `a.b['c']` is the path `a`, `b`, `c`. -/
def Expr.path? : Expr → Option (List String)
  | .ident id => some [id.name]
  | .member _ owner property => owner.path?.map (· ++ [property.name])
  | .index _ owner key => key.text?.bind fun name => owner.path?.map (· ++ [name])
  | .paren _ e => e.path?
  | _ => none

mutual

/-- What a name stands for that starts with the expression as its value. -/
def Expr.declaration : Expr → Declaration
  | .string _ value => .string value
  | .template _ texts expressions =>
    match templateText? texts expressions with
    | some text => .string text
    | none => .unknown
  | .object _ properties => .object (propertyDeclarations [] properties)
  | .ident id => .alias [id.name]
  | .member span owner property =>
    match (Expr.member span owner property).path? with
    | some path => .alias path
    | none => .unknown
  | .index span owner key =>
    match (Expr.index span owner key).path? with
    | some path => .alias path
    | none => .unknown
  | .arrow _ _ | .functionExpr _ _ => .function
  | .paren _ e | .asType _ e | .satisfies _ e => e.declaration
  | _ => .unknown

/-- What the named properties of an object stand for, after those known before. The last property
of a name counts. -/
def propertyDeclarations (known : List (String × Declaration)) :
    List Property → List (String × Declaration)
  | [] => known
  | .field (.name name) _ value :: rest =>
    propertyDeclarations (Assoc.put known name value.declaration) rest
  | .method (.name name) value :: rest =>
    propertyDeclarations (Assoc.put known name value.declaration) rest
  | _ :: rest => propertyDeclarations known rest

end

/-- Whether an expression is a number with a minus sign. -/
def Expr.isNegative : Expr → Bool
  | .unary _ "-" (.number _ _) => true
  | _ => false

/-- The name of the type of an expression, as far as its form shows it. -/
def Expr.typeName : Expr → String
  | .string _ _ | .template _ _ _ => "string"
  | .number _ _ | .bigInt _ _ => "number"
  | .boolean _ => "boolean"
  | .arrow _ _ | .functionExpr _ _ => "function"
  | e => if e.isNegative then "number" else "any"

/-- Whether an expression is a literal. -/
def Expr.isLiteral : Expr → Bool
  | .string _ _ | .number _ _ | .bigInt _ _ | .boolean _ | .null _ => true
  | .template _ _ expressions => expressions.isEmpty
  | e => e.isNegative

end ComponentApi.Script
